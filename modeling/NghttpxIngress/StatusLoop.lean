import NghttpxIngress.Controller

/-!
# The status loops of several replicas

Each controller replica runs syncIngress: every tick it computes, from its own caches, the
addresses of the Pods carrying its own Pod's labels (a Pod's address is its Node's
preferred one, `podAddressLoop_eq`), and writes them into the status of every in-scope
Ingress whose cached status differs; on shutdown it runs one pass that removes its own
address from every in-scope Ingress, read fresh from the API server. A `Cluster` is the
API server's Ingresses and the replicas, one step is one atomic action of one replica, and
a failed `UpdateStatus` leaves the server unchanged. Over any run, a removal takes out
exactly the entries advertising the address the replica computed when its pass started,
and an entry enters a status only through a tick write of a live replica whose list,
computed from its caches when its tick started, holds it.
-/

namespace NghttpxIngress

/-- Modelled from the spec: sortLoadBalancerIngress orders by IP, then host name. -/
def sortLoadBalancerIngress (lbIngs : List LoadBalancerIngress) : List LoadBalancerIngress :=
  lbIngs.insertionSort (fun a b => toLex (a.ip.data, a.hostname.data) ≤ toLex (b.ip.data, b.hostname.data))

/-- Modelled from the spec: uniqLoadBalancerIngress drops adjacent duplicates. -/
def uniqLoadBalancerIngress (lbIngs : List LoadBalancerIngress) : List LoadBalancerIngress :=
  lbIngs.destutter (fun a b => a ≠ b)

/-- Modelled from the spec: loadBalancerIngressesIPEqual, whose body is not in the source.
The spec writes the status when it differs; the call site compares the cached status, not
sorted, with the sorted list, so the two are compared in order. -/
def loadBalancerIngressesIPEqual (a b : List LoadBalancerIngress) : Bool := decide (a = b)

@[simp] theorem loadBalancerIngressesIPEqual_eq_true {a b : List LoadBalancerIngress} :
    loadBalancerIngressesIPEqual a b = true ↔ a = b :=
  decide_eq_true_iff

/-- Whether the entry advertises `addr`. -/
def LoadBalancerIngress.hasAddress (lbIng : LoadBalancerIngress) (addr : String) : Bool :=
  lbIng.ip == addr || lbIng.hostname == addr

/-- Modelled from the spec: removeAddressFromLoadBalancerIngress removes exactly the
entries advertising `addr`. -/
def removeAddressFromLoadBalancerIngress (lbIngs : List LoadBalancerIngress) (addr : String) :
    List LoadBalancerIngress :=
  lbIngs.filter (fun lbIng => !lbIng.hasAddress addr)

theorem mem_removeAddressFromLoadBalancerIngress {lbIngs : List LoadBalancerIngress}
    {addr : String} {x : LoadBalancerIngress} :
    x ∈ removeAddressFromLoadBalancerIngress lbIngs addr ↔ x ∈ lbIngs ∧ x.hasAddress addr = false := by
  simp [removeAddressFromLoadBalancerIngress]

/-- The loop of getPodAddress over the Node's addresses, from the tentative `externalIP`:
a nonempty external IP ends it; a legacy host IP, or an internal IP when allowed, is
kept if nothing was kept before. -/
def podAddressLoop (allowInternalIP : Bool) : List NodeAddress → String → String
  | [], externalIP => externalIP
  | address :: rest, externalIP =>
    if address.type = .externalIP then
      if address.address = "" then podAddressLoop allowInternalIP rest externalIP
      else address.address
    else if externalIP = "" ∧ ((allowInternalIP ∧ address.type = .internalIP) ∨
        address.type = .legacyHostIP) then
      podAddressLoop allowInternalIP rest address.address
    else podAddressLoop allowInternalIP rest externalIP

/-- An external IP with an address: the loop of getPodAddress stops at the first one. -/
def NodeAddress.isExternal (address : NodeAddress) : Bool :=
  decide (address.type = .externalIP ∧ address.address ≠ "")

/-- An address that stands in for a missing external IP: a legacy host IP, or an internal
IP when allowed, with an address. -/
def NodeAddress.isFallback (allowInternalIP : Bool) (address : NodeAddress) : Bool :=
  decide (address.address ≠ "" ∧
    (address.type = .legacyHostIP ∨ allowInternalIP = true ∧ address.type = .internalIP))

/-- The address a Node is meant to be reached at: its first external IP, otherwise its
first fallback address. -/
def preferredAddress (allowInternalIP : Bool) (addresses : List NodeAddress) : Option String :=
  match addresses.find? NodeAddress.isExternal with
  | some address => some address.address
  | none => (addresses.find? (NodeAddress.isFallback allowInternalIP)).map NodeAddress.address

/-- The loop from any tentative value: the first external IP if there is one, otherwise
the tentative value if it is set, otherwise the first fallback address. -/
theorem podAddressLoop_eq (allowInternalIP : Bool) (addresses : List NodeAddress)
    (externalIP : String) :
    podAddressLoop allowInternalIP addresses externalIP =
      match addresses.find? NodeAddress.isExternal with
      | some address => address.address
      | none =>
        if externalIP = "" then
          ((addresses.find? (NodeAddress.isFallback allowInternalIP)).map NodeAddress.address).getD ""
        else externalIP := by
  induction addresses generalizing externalIP with
  | nil => by_cases he : externalIP = "" <;> simp [podAddressLoop, he]
  | cons address rest ih =>
    obtain ⟨type, addr⟩ := address
    unfold podAddressLoop
    simp only [List.find?_cons, NodeAddress.isExternal, NodeAddress.isFallback, ih]
    cases type <;> by_cases ha : addr = "" <;> by_cases he : externalIP = "" <;>
      cases allowInternalIP <;> simp [ha, he]

theorem preferredAddress_ne_empty {allowInternalIP : Bool} {addresses : List NodeAddress}
    {addr : String} (h : preferredAddress allowInternalIP addresses = some addr) : addr ≠ "" := by
  unfold preferredAddress at h
  split at h
  · rename_i address hfind
    cases h
    have hx := List.find?_some hfind
    simp only [NodeAddress.isExternal, decide_eq_true_eq] at hx
    exact hx.2
  · obtain ⟨address, hfind, rfl⟩ := Option.map_eq_some'.mp h
    have hx := List.find?_some hfind
    simp only [NodeAddress.isFallback, decide_eq_true_eq] at hx
    exact hx.1

theorem podAddressLoop_empty (allowInternalIP : Bool) (addresses : List NodeAddress) :
    podAddressLoop allowInternalIP addresses "" =
      (preferredAddress allowInternalIP addresses).getD "" := by
  rw [podAddressLoop_eq, preferredAddress]
  cases addresses.find? NodeAddress.isExternal <;> simp

namespace LoadBalancerController

variable (lbc : LoadBalancerController) (parseIP : String → Bool)

/-- getThisPod. -/
def getThisPod : Except String Pod :=
  match lbc.podLister.find? (fun p => p.meta.ns == lbc.podNamespace && p.meta.name == lbc.podName) with
  | some pod => .ok pod
  | none => .error ("Could not get Pod " ++ lbc.podNamespace ++ "/" ++ lbc.podName ++
      " from lister: pod \"" ++ lbc.podName ++ "\" not found")

/-- getPodAddress. -/
def getPodAddress (pod : Pod) : Except String String :=
  match lbc.nodeLister.find? (fun node => node.name == pod.nodeName) with
  | none => .error ("Node " ++ pod.nodeName ++ " for Pod " ++ pod.meta.ns ++ "/" ++ pod.meta.name ++
      " has been deleted")
  | some node =>
    let externalIP := podAddressLoop lbc.allowInternalIP node.addresses ""
    if externalIP = "" then .error ("Node " ++ node.name ++ " has no external IP")
    else .ok externalIP

/-- getPodAddress on a Pod whose Node is cached: the Node's first external IP, otherwise
its first legacy host IP or (when allowed) internal IP with an address, and an error
exactly when there is neither. -/
theorem getPodAddress_eq_preferred {pod : Pod} {node : Node}
    (hnode : lbc.nodeLister.find? (fun node => node.name == pod.nodeName) = some node) :
    lbc.getPodAddress pod =
      match preferredAddress lbc.allowInternalIP node.addresses with
      | some addr => .ok addr
      | none => .error ("Node " ++ node.name ++ " has no external IP") := by
  unfold getPodAddress
  rw [hnode]
  dsimp only
  rw [podAddressLoop_empty]
  cases h : preferredAddress lbc.allowInternalIP node.addresses with
  | none => simp
  | some addr => simp [preferredAddress_ne_empty h]

/-- A Node whose internal IP comes first, then an empty legacy host IP and an empty
external IP, and last an external IP with an address. -/
def mixedNode : Node :=
  { name := "n1",
    addresses := [{ type := .internalIP, address := "192.168.0.1" },
      { type := .legacyHostIP, address := "" }, { type := .externalIP, address := "" },
      { type := .externalIP, address := "203.0.113.1" }] }

theorem sample_pod_address_preferred :
    ({ sampleController [] with nodeLister := [mixedNode], allowInternalIP := true }).nodeLister.find?
        (fun node => node.name == "n1") = some mixedNode ∧
      ({ sampleController [] with nodeLister := [mixedNode], allowInternalIP := true }).getPodAddress
          { meta := sampleMeta "p", nodeName := "n1", containerPorts := [] } =
        match preferredAddress true mixedNode.addresses with
        | some addr => .ok addr
        | none => .error ("Node " ++ mixedNode.name ++ " has no external IP") :=
  have hnode : ({ sampleController [] with nodeLister := [mixedNode], allowInternalIP := true }).nodeLister.find?
      (fun node => node.name == "n1") = some mixedNode := by decide
  ⟨hnode, getPodAddress_eq_preferred _ hnode⟩

example : preferredAddress true mixedNode.addresses = some "203.0.113.1" ∧
    preferredAddress true mixedNode.addresses.dropLast = some "192.168.0.1" ∧
    preferredAddress false mixedNode.addresses.dropLast = none := by
  decide

/-- getLoadBalancerIngress; `parseIP` is `net.ParseIP(s) != nil`. Pods without an address
are skipped. -/
def getLoadBalancerIngress (selector : List (String × String)) : List LoadBalancerIngress :=
  (lbc.podLister.filter (fun pod => selectorMatches selector pod.meta.labels)).filterMap fun pod =>
    match lbc.getPodAddress pod with
    | .error _ => none
    | .ok externalIP =>
      some (if parseIP externalIP then { ip := externalIP, hostname := "" }
        else { ip := "", hostname := externalIP })

/-- The list a status tick writes: the addresses of the Pods sharing this Pod's labels,
sorted and deduplicated. -/
def tickAddresses : Except String (List LoadBalancerIngress) :=
  match lbc.getThisPod with
  | .error err => .error err
  | .ok thisPod =>
    .ok (uniqLoadBalancerIngress (sortLoadBalancerIngress
      (lbc.getLoadBalancerIngress parseIP thisPod.meta.labels)))

/-- Every entry a tick writes advertises the address of a Pod in the replica's cache that
carries its own Pod's labels. -/
theorem mem_tickAddresses {lbIngs : List LoadBalancerIngress} {x : LoadBalancerIngress}
    (h : lbc.tickAddresses parseIP = .ok lbIngs) (hx : x ∈ lbIngs) :
    ∃ thisPod pod addr, lbc.getThisPod = .ok thisPod ∧ pod ∈ lbc.podLister ∧
      selectorMatches thisPod.meta.labels pod.meta.labels = true ∧
      lbc.getPodAddress pod = .ok addr ∧ x.hasAddress addr = true := by
  unfold tickAddresses at h
  cases hp : lbc.getThisPod with
  | error err => rw [hp] at h; cases h
  | ok thisPod =>
    rw [hp] at h
    cases h
    have hx₁ := (List.perm_insertionSort _ _).subset ((List.destutter_sublist _ _).subset hx)
    obtain ⟨pod, hpod, hf⟩ := List.mem_filterMap.mp hx₁
    obtain ⟨hmem, hsel⟩ := List.mem_filter.mp hpod
    cases ha : lbc.getPodAddress pod with
    | error _ => rw [ha] at hf; cases hf
    | ok addr =>
      rw [ha] at hf
      refine ⟨thisPod, pod, addr, rfl, hmem, hsel, ha, ?_⟩
      cases hf
      split <;> simp [LoadBalancerIngress.hasAddress]

/-- The address the removal pass removes. -/
def thisAddress : Except String String :=
  match lbc.getThisPod with
  | .error err => .error err
  | .ok thisPod => lbc.getPodAddress thisPod

end LoadBalancerController

/-- Where a replica's syncIngress is: in its `select` (or before its first tick), in
updateIngressStatus with the list to write and the cached Ingresses left, in the removal
pass with its address and the cached Ingresses left, or returned. -/
inductive LoopPc
  | idle
  | updating (lbIngs : List LoadBalancerIngress) (ings : List Ingress)
  | removing (addr : String) (ings : List Ingress)
  | exited
  deriving DecidableEq

structure Replica where
  lbc : LoadBalancerController
  stopped : Bool
  loop : LoopPc

/-- Not shutting down. -/
def Replica.Live (rep : Replica) : Prop := rep.stopped = false ∧ rep.loop ≠ .exited

structure Cluster where
  ingresses : List Ingress
  replicas : List Replica

inductive StatusAction
  | tickStart (r : Nat)
  | tickWrite (r : Nat) (ok : Bool)
  | stop (r : Nat)
  | passStart (r : Nat)
  | passStep (r : Nat) (ok : Bool)
  | observe (r : Nat) (ings : List Ingress) (pods : List Pod) (nodes : List Node)

def StatusAction.replica : StatusAction → Nat
  | .tickStart r | .tickWrite r _ | .stop r | .passStart r | .passStep r _ | .observe r _ _ _ => r

/-- UpdateStatus of the Ingress `key`; a missing Ingress is not written. -/
def setStatus (ings : List Ingress) (key : String) (status : List LoadBalancerIngress) :
    List Ingress :=
  ings.map fun ing => if metaNamespaceKey ing.meta = key then { ing with status := status } else ing

/-- The status of the Ingress `key` on the server, empty when there is none. -/
def statusOf (ings : List Ingress) (key : String) : List LoadBalancerIngress :=
  ((getByKey Ingress.meta ings key).map Ingress.status).getD []

theorem getByKey_setStatus (ings : List Ingress) (k key : String) (st : List LoadBalancerIngress) :
    getByKey Ingress.meta (setStatus ings k st) key =
      (getByKey Ingress.meta ings key).map fun ing => if key = k then { ing with status := st } else ing := by
  unfold getByKey setStatus
  rw [List.find?_map]
  have hp : ((fun o : Ingress => metaNamespaceKey o.meta == key) ∘
      fun ing => if metaNamespaceKey ing.meta = k then { ing with status := st } else ing) =
      fun o => metaNamespaceKey o.meta == key := by
    funext ing
    simp only [Function.comp]
    split <;> rfl
  rw [hp]
  cases h : ings.find? (fun o => metaNamespaceKey o.meta == key) with
  | none => rfl
  | some ing =>
    have hk : metaNamespaceKey ing.meta = key := by simpa using List.find?_some h
    simp [hk]

theorem statusOf_setStatus (ings : List Ingress) (k key : String) (st : List LoadBalancerIngress) :
    statusOf (setStatus ings k st) key =
      if key = k ∧ (getByKey Ingress.meta ings key).isSome then st else statusOf ings key := by
  unfold statusOf
  rw [getByKey_setStatus]
  cases getByKey Ingress.meta ings key with
  | none => simp
  | some ing => by_cases hk : key = k <;> simp [hk]

section Step

variable (parseIP : String → Bool)

/-- One action of a replica, on the replica and the server's Ingresses. -/
def replicaStep (server : List Ingress) (rep : Replica) : StatusAction → Option (Replica × List Ingress)
  | .tickStart _ =>
    match rep.loop with
    | .idle =>
      match rep.lbc.tickAddresses parseIP with
      | .error _ => some (rep, server)
      | .ok lbIngs => some ({ rep with loop := .updating lbIngs rep.lbc.ingLister }, server)
    | _ => none
  | .tickWrite _ ok =>
    match rep.loop with
    | .updating _ [] => some ({ rep with loop := .idle }, server)
    | .updating lbIngs (ing :: rest) =>
      let rep' := { rep with loop := .updating lbIngs rest }
      if rep.stopped then some ({ rep with loop := .idle }, server)
      else if !rep.lbc.validateIngressClass ing then some (rep', server)
      else if loadBalancerIngressesIPEqual ing.status lbIngs then some (rep', server)
      else some (rep', if ok then setStatus server (metaNamespaceKey ing.meta) lbIngs else server)
    | _ => none
  | .stop _ => some ({ rep with stopped := true }, server)
  | .passStart _ =>
    match rep.loop, rep.stopped with
    | .idle, true =>
      match rep.lbc.thisAddress with
      | .error _ => some ({ rep with loop := .exited }, server)
      | .ok addr => some ({ rep with loop := .removing addr rep.lbc.ingLister }, server)
    | _, _ => none
  | .passStep _ ok =>
    match rep.loop with
    | .removing _ [] => some ({ rep with loop := .exited }, server)
    | .removing addr (ing :: rest) =>
      let rep' := { rep with loop := .removing addr rest }
      if !rep.lbc.validateIngressClass ing then some (rep', server)
      else
        match getByKey Ingress.meta server (metaNamespaceKey ing.meta) with
        | none => some (rep', server)
        | some cur =>
          let status := removeAddressFromLoadBalancerIngress cur.status addr
          if cur.status = [] ∨ status.length = cur.status.length then some (rep', server)
          else some (rep', if ok then setStatus server (metaNamespaceKey cur.meta) status else server)
    | _ => none
  | .observe _ ings pods nodes =>
    if rep.loop = .exited then none
    else some ({ rep with lbc := { rep.lbc with ingLister := ings, podLister := pods,
                                                nodeLister := nodes } }, server)

/-- A replica writes the list its tick computed from its caches when the tick started. -/
theorem replicaStep_updating {server server' : List Ingress} {rep rep' : Replica} {a : StatusAction}
    {lbIngs : List LoadBalancerIngress} (hs : replicaStep parseIP server rep a = some (rep', server'))
    (h : ∃ ings, rep'.loop = .updating lbIngs ings) :
    (∃ ings, rep.loop = .updating lbIngs ings) ∨
      (a = .tickStart a.replica ∧ rep.lbc.tickAddresses parseIP = .ok lbIngs) := by
  obtain ⟨ings, h⟩ := h
  cases a <;> simp only [replicaStep] at hs <;> (repeat' split at hs) <;> cases hs <;>
    simp_all [StatusAction.replica]

/-- A replica removes the address its caches gave when its removal pass started. -/
theorem replicaStep_removing_addr {server server' : List Ingress} {rep rep' : Replica}
    {a : StatusAction} {addr : String} (hs : replicaStep parseIP server rep a = some (rep', server'))
    (h : ∃ ings, rep'.loop = .removing addr ings) :
    (∃ ings, rep.loop = .removing addr ings) ∨
      (a = .passStart a.replica ∧ rep.lbc.thisAddress = .ok addr) := by
  obtain ⟨ings, h⟩ := h
  cases a <;> simp only [replicaStep] at hs <;> (repeat' split at hs) <;> cases hs <;>
    simp_all [StatusAction.replica]

/-- A removal step for an in-scope `ing` leaves, when its `UpdateStatus` succeeds, exactly
the entries of the status of `ing` on the server that do not advertise `addr`, and every
other status as it was. -/
theorem replicaStep_passStep_status {server server' : List Ingress} {rep rep' : Replica}
    {r : Nat} {ok : Bool} {addr : String} {ing : Ingress} {rest : List Ingress}
    (hloop : rep.loop = .removing addr (ing :: rest)) (hv : rep.lbc.validateIngressClass ing = true)
    (hs : replicaStep parseIP server rep (.passStep r ok) = some (rep', server')) (key : String) :
    statusOf server' key =
      if key = metaNamespaceKey ing.meta ∧ ok = true then
        removeAddressFromLoadBalancerIngress (statusOf server key) addr
      else statusOf server key := by
  simp only [replicaStep, hloop, hv, Bool.not_true, Bool.false_eq_true, if_false] at hs
  split at hs
  · rename_i hnone
    cases hs
    split_ifs with hk
    · rw [hk.1, statusOf, hnone]
      rfl
    · rfl
  · rename_i cur hcur
    have hkey := getByKey_key hcur
    have hcurst : statusOf server (metaNamespaceKey ing.meta) = cur.status := by
      rw [statusOf, hcur]
      rfl
    split_ifs at hs with hskip hok
    · cases hs
      split_ifs with hk
      · rw [hk.1, hcurst]
        unfold removeAddressFromLoadBalancerIngress at hskip ⊢
        rcases hskip with hnil | hlen
        · rw [hnil]
          rfl
        · exact (List.filter_eq_self.mpr (List.filter_length_eq_length.mp hlen)).symm
      · rfl
    · cases hs
      rw [statusOf_setStatus, hkey]
      by_cases hk : key = metaNamespaceKey ing.meta
      · subst hk
        simp [hcur, hcurst, hok]
      · simp [hk]
    · cases hs
      simp [hok]

def stepCluster (s : Cluster) (a : StatusAction) : Option Cluster :=
  match s.replicas[a.replica]? with
  | none => none
  | some rep =>
    (replicaStep parseIP s.ingresses rep a).map fun (rep', ings) =>
      { ingresses := ings, replicas := s.replicas.set a.replica rep' }

def runCluster (s : Cluster) (acts : List StatusAction) : Option Cluster :=
  acts.foldlM (stepCluster parseIP) s

/-- A step writes an entry into a status only as a tick write of a live replica whose
list holds it. -/
theorem replicaStep_status {server server' : List Ingress} {rep rep' : Replica} {a : StatusAction}
    (hs : replicaStep parseIP server rep a = some (rep', server')) {key : String}
    {x : LoadBalancerIngress} (hx : x ∉ statusOf server key) (hx' : x ∈ statusOf server' key) :
    ∃ ok lbIngs ing rest, a = .tickWrite a.replica ok ∧ rep.loop = .updating lbIngs (ing :: rest) ∧
      metaNamespaceKey ing.meta = key ∧ rep.Live ∧ x ∈ lbIngs := by
  have hsame : server' = server → False := fun h => hx (h ▸ hx')
  cases a
  case tickWrite r ok =>
    simp only [replicaStep] at hs
    split at hs
    · cases hs
      exact (hsame rfl).elim
    · rename_i lbIngs ing rest hloop
      split_ifs at hs with hstop
      all_goals cases hs
      all_goals first | exact (hsame rfl).elim | skip
      rw [statusOf_setStatus] at hx'
      split_ifs at hx' with hk
      · exact ⟨ok, lbIngs, ing, rest, rfl, hloop, hk.1.symm, ⟨by simpa using hstop, by simp [hloop]⟩, hx'⟩
      · exact (hx hx').elim
    · cases hs
  case passStep r ok =>
    simp only [replicaStep] at hs
    split at hs
    · cases hs
      exact (hsame rfl).elim
    · rename_i addr ing rest hloop
      split at hs
      · cases hs
        exact (hsame rfl).elim
      · split at hs
        · cases hs
          exact (hsame rfl).elim
        · rename_i cur hcur
          split_ifs at hs
          all_goals cases hs
          all_goals first | exact (hsame rfl).elim | skip
          rw [statusOf_setStatus] at hx'
          split_ifs at hx' with hk
          · have hkey : key = metaNamespaceKey ing.meta := hk.1.trans (getByKey_key hcur)
            refine (hx ?_).elim
            rw [statusOf, hkey, hcur]
            exact (mem_removeAddressFromLoadBalancerIngress.mp hx').1
          · exact (hx hx').elim
    · cases hs
  all_goals
    simp only [replicaStep] at hs
    repeat' split at hs
    all_goals cases hs
    all_goals exact (hsame rfl).elim

theorem stepCluster_status {s t : Cluster} {a : StatusAction}
    (hs : stepCluster parseIP s a = some t) {key : String} {x : LoadBalancerIngress}
    (hx : x ∉ statusOf s.ingresses key) (hx' : x ∈ statusOf t.ingresses key) :
    ∃ ok rep lbIngs ing rest, a = .tickWrite a.replica ok ∧ s.replicas[a.replica]? = some rep ∧
      rep.loop = .updating lbIngs (ing :: rest) ∧ metaNamespaceKey ing.meta = key ∧ rep.Live ∧
      x ∈ lbIngs := by
  unfold stepCluster at hs
  cases hr : s.replicas[a.replica]? with
  | none => rw [hr] at hs; cases hs
  | some rep =>
    rw [hr] at hs
    obtain ⟨⟨rep', ings⟩, hrs, rfl⟩ := Option.map_eq_some'.mp hs
    obtain ⟨ok, lbIngs, ing, rest, ha, hl, hk, hlive, hmem⟩ := replicaStep_status parseIP hrs hx hx'
    exact ⟨ok, rep, lbIngs, ing, rest, ha, rfl, hl, hk, hlive, hmem⟩

theorem runCluster_cons {s : Cluster} {a : StatusAction} {acts : List StatusAction} :
    runCluster parseIP s (a :: acts) =
      (stepCluster parseIP s a).bind (fun t => runCluster parseIP t acts) := rfl

/-- A step of the cluster is a step of one replica, on the server's Ingresses; the other
replicas are left as they are. -/
theorem stepCluster_cases {s t : Cluster} {a : StatusAction}
    (hs : stepCluster parseIP s a = some t) :
    ∃ rep rep', s.replicas[a.replica]? = some rep ∧
      replicaStep parseIP s.ingresses rep a = some (rep', t.ingresses) ∧
      t.replicas[a.replica]? = some rep' ∧ ∀ r, a.replica ≠ r → t.replicas[r]? = s.replicas[r]? := by
  unfold stepCluster at hs
  cases ha : s.replicas[a.replica]? with
  | none =>
    rw [ha] at hs
    cases hs
  | some rep =>
    rw [ha] at hs
    obtain ⟨⟨rep', server'⟩, hrs, rfl⟩ := Option.map_eq_some'.mp hs
    exact ⟨rep, rep', rfl, hrs, List.getElem?_set_self (List.getElem?_eq_some_iff.mp ha).1,
      fun r hr => List.getElem?_set_ne hr⟩

/-- After the run `acts` from `s`, replica `r` is in a loop state satisfying `P` that it was
in already at `s`, or that it entered at a step `start r` of the run, taken from a state
satisfying `C`. -/
def StartedIn (s : Cluster) (acts : List StatusAction) (r : Nat) (P : LoopPc → Prop)
    (start : Nat → StatusAction) (C : Replica → Prop) : Prop :=
  (∃ rep, s.replicas[r]? = some rep ∧ P rep.loop) ∨
    ∃ acts₁ acts₂ t rep, acts = acts₁ ++ start r :: acts₂ ∧ runCluster parseIP s acts₁ = some t ∧
      t.replicas[r]? = some rep ∧ C rep

/-- Where every step into `P` is a step `start` from `C` or keeps `P`, every loop state in
`P` after a run was entered at a step `start` of the run, or was there at its start. -/
theorem startedIn_of_run {P : LoopPc → Prop} {start : Nat → StatusAction} {C : Replica → Prop}
    (hstep : ∀ {server server' : List Ingress} {rep rep' : Replica} {a : StatusAction},
      replicaStep parseIP server rep a = some (rep', server') → P rep'.loop →
        P rep.loop ∨ (a = start a.replica ∧ C rep)) {r : Nat} :
    ∀ {acts : List StatusAction} {s t : Cluster} {rep : Replica}, runCluster parseIP s acts = some t →
      t.replicas[r]? = some rep → P rep.loop → StartedIn parseIP s acts r P start C := by
  intro acts
  induction acts with
  | nil =>
    intro s t rep h hr hp
    cases h
    exact .inl ⟨rep, hr, hp⟩
  | cons a acts ih =>
    intro s t rep h hr hp
    rw [runCluster_cons] at h
    obtain ⟨u, hu, hrun⟩ := Option.bind_eq_some.mp h
    rcases ih hrun hr hp with ⟨repu, hru, hpu⟩ | ⟨acts₁, acts₂, t', rep', hacts, ht', hr', hc⟩
    · obtain ⟨reps, rep'', hs, hrs, hu', hother⟩ := stepCluster_cases parseIP hu
      by_cases har : a.replica = r
      · subst har
        rw [hu', Option.some.injEq] at hru
        subst hru
        rcases hstep hrs hpu with hp' | ⟨ha, hc⟩
        · exact .inl ⟨reps, hs, hp'⟩
        · exact .inr ⟨[], acts, s, reps, by rw [← ha]; rfl, rfl, hs, hc⟩
      · exact .inl ⟨repu, (hother r har).symm.trans hru, hpu⟩
    · refine .inr ⟨a :: acts₁, acts₂, t', rep', by rw [hacts]; rfl, ?_, hr', hc⟩
      rw [runCluster_cons, hu]
      exact ht'

/-- In any interleaving, an entry appears in the status of an Ingress only through the
write, for that Ingress, of a live replica's tick whose list holds the entry. -/
theorem run_status_entry_tickWrite {s s' : Cluster} :
    ∀ {acts : List StatusAction}, runCluster parseIP s acts = some s' →
      ∀ {key : String} {x : LoadBalancerIngress}, x ∉ statusOf s.ingresses key →
        x ∈ statusOf s'.ingresses key →
        ∃ acts₁ acts₂ t r ok rep lbIngs ing rest, acts = acts₁ ++ .tickWrite r ok :: acts₂ ∧
          runCluster parseIP s acts₁ = some t ∧ t.replicas[r]? = some rep ∧
          rep.loop = .updating lbIngs (ing :: rest) ∧ metaNamespaceKey ing.meta = key ∧
          rep.Live ∧ x ∈ lbIngs := by
  intro acts
  induction acts generalizing s with
  | nil =>
    intro h key x hx hx'
    cases h
    exact (hx hx').elim
  | cons a acts ih =>
    intro h key x hx hx'
    rw [runCluster_cons] at h
    obtain ⟨t, ht, hrun⟩ := Option.bind_eq_some.mp h
    by_cases hxt : x ∈ statusOf t.ingresses key
    · obtain ⟨ok, rep, lbIngs, ing, rest, ha, hr, hl, hk, hlive, hmem⟩ :=
        stepCluster_status parseIP ht hx hxt
      exact ⟨[], acts, s, a.replica, ok, rep, lbIngs, ing, rest, by rw [← ha]; rfl, rfl, hr, hl, hk,
        hlive, hmem⟩
    · obtain ⟨acts₁, acts₂, u, r, ok, rep, lbIngs, ing, rest, hacts, hu, hr, hl, hk, hlive, hmem⟩ :=
        ih hrun hxt hx'
      refine ⟨a :: acts₁, acts₂, u, r, ok, rep, lbIngs, ing, rest, by rw [hacts]; rfl, ?_, hr, hl, hk,
        hlive, hmem⟩
      rw [runCluster_cons, ht]
      exact hu

/-- In any interleaving, the shutdown pass of a replica removes from the status of each
in-scope Ingress it reaches, when its `UpdateStatus` succeeds, exactly the entries
advertising the address it computed from its caches when the pass started, and leaves
every other status as it was; and an entry enters the status of an Ingress only through
the write, for that Ingress, of a live replica's tick whose list holds the entry, that list
computed from the replica's caches when the tick started. -/
theorem status_entry_added_only_by_tick {s s' : Cluster} {acts : List StatusAction}
    (h : runCluster parseIP s acts = some s') :
    (∀ acts₁ acts₂ t t' r ok rep addr ing rest, acts = acts₁ ++ .passStep r ok :: acts₂ →
      runCluster parseIP s acts₁ = some t → stepCluster parseIP t (.passStep r ok) = some t' →
      t.replicas[r]? = some rep → rep.loop = .removing addr (ing :: rest) →
      rep.lbc.validateIngressClass ing = true →
      (∀ key, statusOf t'.ingresses key =
        if key = metaNamespaceKey ing.meta ∧ ok = true then
          removeAddressFromLoadBalancerIngress (statusOf t.ingresses key) addr
        else statusOf t.ingresses key) ∧
      StartedIn parseIP s acts₁ r (fun pc => ∃ ings, pc = .removing addr ings)
        StatusAction.passStart fun rep₀ => rep₀.lbc.thisAddress = .ok addr) ∧
    ∀ key x, x ∉ statusOf s.ingresses key → x ∈ statusOf s'.ingresses key →
      ∃ acts₁ acts₂ t r ok rep lbIngs ing rest, acts = acts₁ ++ .tickWrite r ok :: acts₂ ∧
        runCluster parseIP s acts₁ = some t ∧ t.replicas[r]? = some rep ∧
        rep.loop = .updating lbIngs (ing :: rest) ∧ metaNamespaceKey ing.meta = key ∧
        rep.Live ∧ x ∈ lbIngs ∧
        StartedIn parseIP s acts₁ r (fun pc => ∃ ings, pc = .updating lbIngs ings)
          StatusAction.tickStart fun rep₀ => rep₀.lbc.tickAddresses parseIP = .ok lbIngs := by
  refine ⟨fun acts₁ acts₂ t t' r ok rep addr ing rest _ ht ht' hr hl hv => ?_,
    fun key x hx hx' => ?_⟩
  · obtain ⟨rep₁, rep', hr₁, hrs, -⟩ := stepCluster_cases parseIP ht'
    obtain rfl : rep₁ = rep := Option.some.inj (hr₁.symm.trans hr)
    exact ⟨replicaStep_passStep_status parseIP hl hv hrs,
      startedIn_of_run parseIP (replicaStep_removing_addr parseIP) ht hr ⟨_, hl⟩⟩
  · obtain ⟨acts₁, acts₂, t, r, ok, rep, lbIngs, ing, rest, hacts, ht, hr, hl, hk, hlive, hmem⟩ :=
      run_status_entry_tickWrite parseIP h hx hx'
    exact ⟨acts₁, acts₂, t, r, ok, rep, lbIngs, ing, rest, hacts, ht, hr, hl, hk, hlive, hmem,
      startedIn_of_run parseIP (replicaStep_updating parseIP) ht hr ⟨_, hl⟩⟩

end Step

/-! ## Two replicas -/

/-- Stands for `net.ParseIP` on the sample addresses. -/
def sampleParseIP (s : String) : Bool := s.data.all fun c => c.isDigit || c == '.'

def sampleNode (name addr : String) : Node :=
  { name := name, addresses := [{ type := .externalIP, address := addr }] }

def sampleNodes : List Node := [sampleNode "n1" "10.0.0.1", sampleNode "n2" "10.0.0.2"]

/-- A controller Pod `default/name` on `node`. -/
def controllerPod (name node : String) : Pod :=
  { meta := { sampleMeta name with labels := [("app", "nghttpx")] }, nodeName := node,
    containerPorts := [] }

/-- The controllers `a` and `b` on the two Nodes, and on one Node. -/
def twoNodePods : List Pod := [controllerPod "a" "n1", controllerPod "b" "n2"]

def sharedNodePods : List Pod := [controllerPod "a" "n1", controllerPod "b" "n1"]

def statusIngress : Ingress := catchAllIngress "x" []

/-- The replica running as Pod `name`, its caches holding `pods`. -/
def sampleReplica (name : String) (pods : List Pod) : Replica where
  lbc := { sampleController [statusIngress] with
    podLister := pods, nodeLister := sampleNodes, podName := name, podNamespace := "default" }
  stopped := false
  loop := .idle

def sampleCluster (pods : List Pod) : Cluster :=
  { ingresses := [statusIngress], replicas := [sampleReplica "a" pods, sampleReplica "b" pods] }

/-- A tick of `a`, then the shutdown pass of `b`. -/
def tickThenPass : List StatusAction :=
  [.tickStart 0, .tickWrite 0 true, .tickWrite 0 true, .stop 1, .passStart 1, .passStep 1 true,
   .passStep 1 true]

theorem sample_status_entry_added :
    ∃ s', runCluster sampleParseIP (sampleCluster twoNodePods) tickThenPass = some s' ∧
      (∀ acts₁ acts₂ t t' r ok rep addr ing rest, tickThenPass = acts₁ ++ .passStep r ok :: acts₂ →
        runCluster sampleParseIP (sampleCluster twoNodePods) acts₁ = some t →
        stepCluster sampleParseIP t (.passStep r ok) = some t' →
        t.replicas[r]? = some rep → rep.loop = .removing addr (ing :: rest) →
        rep.lbc.validateIngressClass ing = true →
        (∀ key, statusOf t'.ingresses key =
          if key = metaNamespaceKey ing.meta ∧ ok = true then
            removeAddressFromLoadBalancerIngress (statusOf t.ingresses key) addr
          else statusOf t.ingresses key) ∧
        StartedIn sampleParseIP (sampleCluster twoNodePods) acts₁ r
          (fun pc => ∃ ings, pc = .removing addr ings) StatusAction.passStart
          fun rep₀ => rep₀.lbc.thisAddress = .ok addr) ∧
      ∀ key x, x ∉ statusOf (sampleCluster twoNodePods).ingresses key →
        x ∈ statusOf s'.ingresses key →
        ∃ acts₁ acts₂ t r ok rep lbIngs ing rest, tickThenPass = acts₁ ++ .tickWrite r ok :: acts₂ ∧
          runCluster sampleParseIP (sampleCluster twoNodePods) acts₁ = some t ∧
          t.replicas[r]? = some rep ∧ rep.loop = .updating lbIngs (ing :: rest) ∧
          metaNamespaceKey ing.meta = key ∧ rep.Live ∧ x ∈ lbIngs ∧
          StartedIn sampleParseIP (sampleCluster twoNodePods) acts₁ r
            (fun pc => ∃ ings, pc = .updating lbIngs ings) StatusAction.tickStart
            fun rep₀ => rep₀.lbc.tickAddresses sampleParseIP = .ok lbIngs := by
  obtain ⟨s', hrun⟩ : ∃ s', runCluster sampleParseIP (sampleCluster twoNodePods) tickThenPass =
      some s' := ⟨_, rfl⟩
  exact ⟨s', hrun, status_entry_added_only_by_tick sampleParseIP hrun⟩

/-- With `a` and `b` on one Node, `b`'s pass removes the address `a` still has. With them on
two Nodes, after `b`'s pass a tick of `a`, whose cache still lists Pod `b`, writes `b`'s
address back though `b` has exited. -/
theorem shutdown_removal_neither_exact_nor_durable :
    (sampleReplica "a" sharedNodePods).lbc.thisAddress.toOption = some "10.0.0.1" ∧
      (runCluster sampleParseIP (sampleCluster sharedNodePods) tickThenPass).map
          (fun s => (statusOf s.ingresses "default/x", s.replicas.map Replica.stopped)) =
        some ([], [false, true]) ∧
      (sampleReplica "a" twoNodePods).lbc.thisAddress.toOption = some "10.0.0.1" ∧
      (sampleReplica "b" twoNodePods).lbc.thisAddress.toOption = some "10.0.0.2" ∧
      (runCluster sampleParseIP (sampleCluster twoNodePods) (tickThenPass ++
          [.observe 0 [{ statusIngress with status := [⟨"10.0.0.1", ""⟩] }] twoNodePods sampleNodes,
           .tickStart 0, .tickWrite 0 true])).map
          (fun s => (statusOf s.ingresses "default/x", s.replicas.map Replica.loop)) =
        some ([⟨"10.0.0.1", ""⟩, ⟨"10.0.0.2", ""⟩],
          [.updating [⟨"10.0.0.1", ""⟩, ⟨"10.0.0.2", ""⟩] [], .exited]) := by
  decide

end NghttpxIngress
