import NghttpxIngress.LifecycleRuns
import NghttpxIngress.StatusLoop
import NghttpxIngress.Determinism

/-!
# The status loops over whole runs

What a status tick writes is sorted by IP, then host name, and deduplicated, and does not
depend on the order in which the listers return objects. Stated at the end of a loop and
resting on an invariant kept by every allowed step of every replica (`PassCleared`,
`TickWritten`): a removal pass that went through its whole list, every `UpdateStatus`
succeeding, leaves its address on no in-scope Ingress of that list unless some replica
wrote a tick meanwhile; and a tick that went through its whole list leaves its list on
every in-scope Ingress whose cached status differed, unless another replica wrote
meanwhile. Seen through `Replica.toRuntime`, each step of a replica is zero, one or two
steps of syncIngress or `Stop` in `Lifecycle`.
-/

namespace NghttpxIngress

section Lists

variable {α : Type}

/-- Where at most one element passes `p`, `find?` does not depend on the order. -/
theorem find?_eq_of_perm {p : α → Bool} {l l' : List α} (hp : l.Perm l')
    (hu : ∀ a ∈ l, ∀ b ∈ l, p a = true → p b = true → a = b) : l'.find? p = l.find? p := by
  simpa using find?_bind_eq_of_perm (g := some) hp fun a ha b hb hpa hpb =>
    congrArg some (hu a ha b hb hpa hpb)

end Lists

/-! ## The list a tick writes -/

/-- The key sortLoadBalancerIngress orders by. -/
def lbIngKey (lbIng : LoadBalancerIngress) : List Char ×ₗ List Char :=
  toLex (lbIng.ip.data, lbIng.hostname.data)

theorem lbIngKey_inj {a b : LoadBalancerIngress} (h : lbIngKey a = lbIngKey b) : a = b := by
  simp only [lbIngKey, toLex_inj, Prod.mk.injEq] at h
  cases a
  cases b
  simp only [LoadBalancerIngress.mk.injEq]
  exact ⟨String.ext h.1, String.ext h.2⟩

theorem sortLoadBalancerIngress_eq (l : List LoadBalancerIngress) :
    sortLoadBalancerIngress l = SortSlice.insertion.sort lbIngKey l := rfl

theorem sortLoadBalancerIngress_perm_eq {l l' : List LoadBalancerIngress} (hp : l.Perm l') :
    sortLoadBalancerIngress l = sortLoadBalancerIngress l' := by
  rw [sortLoadBalancerIngress_eq, sortLoadBalancerIngress_eq]
  exact eq_of_perm_of_sorted_key lbIngKey
    (((SortSlice.insertion.perm _ l).trans hp).trans (SortSlice.insertion.perm _ l').symm)
    (SortSlice.insertion.sorted _ l) (SortSlice.insertion.sorted _ l')
    (fun _ _ _ _ h => lbIngKey_inj h)

theorem uniq_sort_sorted (l : List LoadBalancerIngress) :
    (uniqLoadBalancerIngress (sortLoadBalancerIngress l)).Sorted
      (fun a b => lbIngKey a < lbIngKey b) :=
  sorted_lt_of_chain'_ne lbIngKey
    ((SortSlice.insertion.sorted lbIngKey l).sublist (List.destutter_sublist _ _))
    ((List.destutter_is_chain' _ _).imp fun _ _ h => mt lbIngKey_inj h)

namespace LoadBalancerController

variable {lbc : LoadBalancerController} {pods : List Pod} {nodes : List Node}

theorem getThisPod_perm (hpk : (lbc.podLister.map fun p => (p.meta.ns, p.meta.name)).Nodup)
    (hp : lbc.podLister.Perm pods) :
    ({ lbc with podLister := pods, nodeLister := nodes }).getThisPod = lbc.getThisPod := by
  unfold getThisPod
  dsimp only
  rw [find?_eq_of_perm hp]
  intro a ha b hb hpa hpb
  refine List.inj_on_of_nodup_map hpk ha hb ?_
  simp only [Bool.and_eq_true, beq_iff_eq] at hpa hpb
  rw [hpa.1, hpa.2, hpb.1, hpb.2]

theorem getPodAddress_perm (hnk : (lbc.nodeLister.map Node.name).Nodup)
    (hn : lbc.nodeLister.Perm nodes) :
    ({ lbc with podLister := pods, nodeLister := nodes }).getPodAddress = lbc.getPodAddress := by
  funext pod
  unfold getPodAddress
  dsimp only
  rw [find?_eq_of_perm hn]
  intro a ha b hb hpa hpb
  refine List.inj_on_of_nodup_map hnk ha hb ?_
  simp only [beq_iff_eq] at hpa hpb
  rw [hpa, hpb]

/-- The list a tick writes is strictly increasing by IP, then host name, so no entry occurs
twice; and in a cache holding one Pod per namespace and name and one Node per name, it
depends on which Pods and Nodes are cached, not on the order the listers return them. -/
theorem tickAddresses_order_independent (parseIP : String → Bool)
    (hpk : (lbc.podLister.map fun p => (p.meta.ns, p.meta.name)).Nodup)
    (hnk : (lbc.nodeLister.map Node.name).Nodup) (hp : lbc.podLister.Perm pods)
    (hn : lbc.nodeLister.Perm nodes) :
    ({ lbc with podLister := pods, nodeLister := nodes }).tickAddresses parseIP =
        lbc.tickAddresses parseIP ∧
      ∀ lbIngs, lbc.tickAddresses parseIP = .ok lbIngs →
        lbIngs.Sorted (fun a b => toLex (a.ip.data, a.hostname.data) <
          toLex (b.ip.data, b.hostname.data)) := by
  constructor
  · unfold tickAddresses
    rw [getThisPod_perm hpk hp]
    cases lbc.getThisPod with
    | error _ => rfl
    | ok thisPod =>
      simp only [Except.ok.injEq]
      congr 1
      apply sortLoadBalancerIngress_perm_eq
      unfold getLoadBalancerIngress
      rw [getPodAddress_perm hnk hn]
      exact (hp.symm.filter _).filterMap _
  · intro lbIngs h
    unfold tickAddresses at h
    split at h
    · cases h
    · cases h
      exact uniq_sort_sorted _

end LoadBalancerController

/-- Replica `a`'s caches listed the other way round. -/
theorem sample_tick_order_independent :
    ((sampleReplica "a" twoNodePods).lbc.podLister.map fun p => (p.meta.ns, p.meta.name)).Nodup ∧
      ((sampleReplica "a" twoNodePods).lbc.nodeLister.map Node.name).Nodup ∧
      (sampleReplica "a" twoNodePods).lbc.podLister.Perm twoNodePods.reverse ∧
      (sampleReplica "a" twoNodePods).lbc.nodeLister.Perm sampleNodes.reverse ∧
      ({ (sampleReplica "a" twoNodePods).lbc with
          podLister := twoNodePods.reverse, nodeLister := sampleNodes.reverse }).tickAddresses
          sampleParseIP = (sampleReplica "a" twoNodePods).lbc.tickAddresses sampleParseIP ∧
        ∀ lbIngs, (sampleReplica "a" twoNodePods).lbc.tickAddresses sampleParseIP = .ok lbIngs →
          lbIngs.Sorted (fun a b => toLex (a.ip.data, a.hostname.data) <
            toLex (b.ip.data, b.hostname.data)) :=
  have hpk : ((sampleReplica "a" twoNodePods).lbc.podLister.map
      fun p => (p.meta.ns, p.meta.name)).Nodup := by decide
  have hnk : ((sampleReplica "a" twoNodePods).lbc.nodeLister.map Node.name).Nodup := by decide
  ⟨hpk, hnk, (List.reverse_perm _).symm, (List.reverse_perm _).symm,
    LoadBalancerController.tickAddresses_order_independent sampleParseIP hpk hnk
      (List.reverse_perm _).symm (List.reverse_perm _).symm⟩

/-! ## The removal pass -/

theorem validateIngressClass_congr {lbc lbc' : LoadBalancerController}
    (h : lbc'.ingressClass = lbc.ingressClass) :
    lbc'.validateIngressClass = lbc.validateIngressClass := by
  funext ing
  simp [LoadBalancerController.validateIngressClass, h]

section Removal

variable (parseIP : String → Bool)

/-- An exited replica only takes `stop`, which changes nothing it reads or writes. -/
theorem replicaStep_exited {server server' : List Ingress} {rep rep' : Replica}
    {a : StatusAction} (hloop : rep.loop = .exited)
    (hs : replicaStep parseIP server rep a = some (rep', server')) :
    rep'.loop = .exited ∧ rep'.lbc = rep.lbc ∧ server' = server := by
  cases a <;> simp only [replicaStep, hloop] at hs
  case stop =>
    cases hs
    exact ⟨rfl, rfl, rfl⟩
  all_goals simp at hs

/-- One step of the removal pass for `ing`: afterwards, if the update succeeded and `ing`
is in scope, no entry of its status on the server advertises the address. -/
theorem passStep_clears {server server' : List Ingress} {rep rep' : Replica} {r : Nat}
    {addr : String} {ing : Ingress} {rest : List Ingress}
    (hloop : rep.loop = .removing addr (ing :: rest))
    (hs : replicaStep parseIP server rep (.passStep r true) = some (rep', server'))
    (hv : rep.lbc.validateIngressClass ing = true) :
    ∀ x ∈ statusOf server' (metaNamespaceKey ing.meta), x.hasAddress addr = false := by
  simp only [replicaStep, hloop, hv, Bool.not_true, Bool.false_eq_true, if_false] at hs
  split at hs
  · rename_i hnone
    cases hs
    simp [statusOf, hnone]
  · rename_i cur hcur
    have hkey := getByKey_key hcur
    split_ifs at hs with hskip
    · cases hs
      intro x hx
      rw [statusOf, hcur] at hx
      rcases hskip with hnil | hlen
      · simp [hnil] at hx
      · simpa using (List.filter_length_eq_length.mp hlen) x hx
    · cases hs
      intro x hx
      rw [statusOf_setStatus, if_pos ⟨hkey.symm, by simp [hcur]⟩] at hx
      exact (mem_removeAddressFromLoadBalancerIngress.mp hx).2

/-- A step of a replica in its removal pass, other than a tick write: it keeps its class,
and either stays where it is or goes past the next Ingress of its list. -/
theorem replicaStep_removing {server server' : List Ingress} {rep rep' : Replica}
    {a : StatusAction} {addr : String} {rest : List Ingress}
    (hloop : rep.loop = .removing addr rest)
    (hs : replicaStep parseIP server rep a = some (rep', server'))
    (hw : ∀ r ok, a ≠ .tickWrite r ok) :
    rep'.lbc.ingressClass = rep.lbc.ingressClass ∧
      (rep'.loop = rep.loop ∨
        ∃ r ok, a = .passStep r ok ∧
          ((rest = [] ∧ rep'.loop = .exited) ∨
            ∃ ing rest', rest = ing :: rest' ∧ rep'.loop = .removing addr rest')) := by
  cases a
  case tickWrite r ok => exact absurd rfl (hw r ok)
  case stop r =>
    cases hs
    exact ⟨rfl, .inl rfl⟩
  case observe r ings pods nodes =>
    simp only [replicaStep, hloop, reduceCtorEq, if_false, Option.some.injEq, Prod.mk.injEq] at hs
    obtain ⟨rfl, rfl⟩ := hs
    exact ⟨rfl, .inl hloop.symm⟩
  case passStep r ok =>
    refine ⟨?_, .inr ⟨r, ok, rfl, ?_⟩⟩ <;> cases rest with
    | nil =>
      simp only [replicaStep, hloop, Option.some.injEq, Prod.mk.injEq] at hs
      obtain ⟨rfl, rfl⟩ := hs
      first | rfl | exact .inl ⟨rfl, rfl⟩
    | cons ing rest' =>
      simp only [replicaStep, hloop] at hs
      split_ifs at hs <;> (try split at hs) <;> (try split_ifs at hs) <;> cases hs <;>
        first | rfl | exact .inr ⟨ing, rest', rfl, rfl⟩
  all_goals simp [replicaStep, hloop] at hs

/-- Replica `r`, of the class of `lbc₀`, is in its removal pass for `addr` past the
Ingresses `done` of `ings`, or has exited after all of them; no status entry of a done
Ingress in scope advertises `addr`. -/
def PassCleared (s : Cluster) (r : Nat) (lbc₀ : LoadBalancerController) (addr : String)
    (ings : List Ingress) : Prop :=
  ∃ rep done rest, s.replicas[r]? = some rep ∧ rep.lbc.ingressClass = lbc₀.ingressClass ∧
    ings = done ++ rest ∧ (rep.loop = .removing addr rest ∨ (rest = [] ∧ rep.loop = .exited)) ∧
    ∀ ing ∈ done, lbc₀.validateIngressClass ing = true →
      ∀ x ∈ statusOf s.ingresses (metaNamespaceKey ing.meta), x.hasAddress addr = false

/-- Every step but a tick write keeps `PassCleared`, provided `r`'s own removals succeed:
other steps only remove status entries, and `r`'s next removal clears one more Ingress. -/
theorem PassCleared.step {s t : Cluster} {r : Nat} {lbc₀ : LoadBalancerController}
    {addr : String} {ings : List Ingress} {a : StatusAction}
    (hc : PassCleared s r lbc₀ addr ings) (hs : stepCluster parseIP s a = some t)
    (hw : ∀ r' ok, a ≠ .tickWrite r' ok) (hok : ∀ ok, a = .passStep r ok → ok = true) :
    PassCleared t r lbc₀ addr ings := by
  obtain ⟨rep, done, rest, hrep, hcls, hings, hloop, hdone⟩ := hc
  obtain ⟨repa, rep', ha, hrs, ht, hother⟩ := stepCluster_cases parseIP hs
  have hdone' : ∀ ing ∈ done, lbc₀.validateIngressClass ing = true →
      ∀ x ∈ statusOf t.ingresses (metaNamespaceKey ing.meta), x.hasAddress addr = false := by
    intro ing hing hv x hx
    refine hdone ing hing hv x ?_
    by_contra hx'
    obtain ⟨ok, -, -, -, ha', -⟩ := replicaStep_status parseIP hrs hx' hx
    exact hw _ _ ha'
  by_cases hr : a.replica = r
  · rw [hr, hrep, Option.some.injEq] at ha
    subst ha
    rw [hr] at ht
    rcases hloop with hl | ⟨rfl, hl⟩
    · obtain ⟨hcls', hl' | ⟨r', ok, rfl, ⟨rfl, hex⟩ | ⟨ing, rest', rfl, hl'⟩⟩⟩ :=
        replicaStep_removing parseIP hl hrs hw
      · exact ⟨rep', done, rest, ht, hcls'.trans hcls, hings, .inl (hl'.trans hl), hdone'⟩
      · exact ⟨rep', done, [], ht, hcls'.trans hcls, hings, .inr ⟨rfl, hex⟩, hdone'⟩
      · obtain rfl : ok = true := hok ok (by rw [← hr]; rfl)
        refine ⟨rep', done ++ [ing], rest', ht, hcls'.trans hcls, by simp [hings], .inl hl',
          fun ing' hing' hv => ?_⟩
        rcases List.mem_append.mp hing' with hd | hnew
        · exact hdone' ing' hd hv
        · rw [List.mem_singleton.mp hnew] at hv ⊢
          exact passStep_clears parseIP hl hrs (by rw [validateIngressClass_congr hcls]; exact hv)
    · obtain ⟨hex, hlbc, -⟩ := replicaStep_exited parseIP hl hrs
      exact ⟨rep', done, [], ht, hlbc ▸ hcls, hings, .inr ⟨rfl, hex⟩, hdone'⟩
  · exact ⟨rep, done, rest, (hother r hr).trans hrep, hcls, hings, hloop, hdone'⟩

theorem PassCleared.run {r : Nat} {lbc₀ : LoadBalancerController} {addr : String}
    {ings : List Ingress} {acts : List StatusAction} :
    ∀ {s s' : Cluster}, PassCleared s r lbc₀ addr ings → runCluster parseIP s acts = some s' →
      (∀ a ∈ acts, ∀ r' ok, a ≠ .tickWrite r' ok) → (∀ ok, .passStep r ok ∈ acts → ok = true) →
      PassCleared s' r lbc₀ addr ings := by
  induction acts with
  | nil =>
    intro s s' hc h _ _
    cases h
    exact hc
  | cons a acts ih =>
    intro s s' hc h hw hok
    rw [runCluster_cons] at h
    obtain ⟨t, ht, hrun⟩ := Option.bind_eq_some.mp h
    refine ih (hc.step parseIP ht (hw a (List.mem_cons_self _ _)) ?_) hrun
      (fun b hb => hw b (List.mem_cons_of_mem _ hb)) (fun ok hm => hok ok (List.mem_cons_of_mem _ hm))
    rintro ok rfl
    exact hok ok (List.mem_cons_self _ _)

/-- Unless some replica writes a status tick in the meantime, once replica `r`'s removal pass
has gone through its whole list with every `UpdateStatus` succeeding, no in-scope Ingress of
that list has a status entry advertising `r`'s address, whatever the other replicas did. -/
theorem removal_pass_clears_address {s s' : Cluster} {acts : List StatusAction} {r : Nat}
    {rep : Replica} {addr : String} {ings : List Ingress}
    (hrep : s.replicas[r]? = some rep) (hloop : rep.loop = .removing addr ings)
    (hw : ∀ a ∈ acts, ∀ r' ok, a ≠ .tickWrite r' ok)
    (hok : ∀ ok, .passStep r ok ∈ acts → ok = true)
    (hrun : runCluster parseIP s acts = some s')
    (hexit : (s'.replicas[r]?).map Replica.loop = some .exited) :
    ∀ ing ∈ ings, rep.lbc.validateIngressClass ing = true →
      ∀ x ∈ statusOf s'.ingresses (metaNamespaceKey ing.meta), x.hasAddress addr = false := by
  have hc : PassCleared s r rep.lbc addr ings :=
    ⟨rep, [], ings, hrep, rfl, rfl, .inl hloop, by simp⟩
  obtain ⟨rep', done, rest, hrep', -, hings, hloop', hdone⟩ := PassCleared.run parseIP hc hrun hw hok
  rw [hrep', Option.map_some', Option.some.injEq] at hexit
  obtain rfl : rest = [] := by
    rcases hloop' with hl | ⟨h, -⟩
    · rw [hl] at hexit
      cases hexit
    · exact h
  rw [List.append_nil] at hings
  subst hings
  exact hdone

end Removal

/-- Replica `a` writes both addresses, then `b` stops and runs its pass while `a` starts
another tick. -/
theorem sample_removal_pass_clears :
    ∃ s rep s', runCluster sampleParseIP (sampleCluster twoNodePods)
        [.tickStart 0, .tickWrite 0 true, .tickWrite 0 true, .stop 1, .passStart 1] = some s ∧
      s.replicas[1]? = some rep ∧ rep.loop = .removing "10.0.0.2" [statusIngress] ∧
      runCluster sampleParseIP s [.tickStart 0, .passStep 1 true, .passStep 1 true] = some s' ∧
      (s'.replicas[1]?).map Replica.loop = some .exited ∧
      ∀ ing ∈ [statusIngress], rep.lbc.validateIngressClass ing = true →
        ∀ x ∈ statusOf s'.ingresses (metaNamespaceKey ing.meta), x.hasAddress "10.0.0.2" = false := by
  obtain ⟨s, hs⟩ : ∃ s, runCluster sampleParseIP (sampleCluster twoNodePods)
      [.tickStart 0, .tickWrite 0 true, .tickWrite 0 true, .stop 1, .passStart 1] = some s :=
    ⟨_, rfl⟩
  have hval := Option.some.inj (hs.symm.trans rfl)
  obtain ⟨rep, hrep, hloop⟩ : ∃ rep, s.replicas[1]? = some rep ∧
      rep.loop = .removing "10.0.0.2" [statusIngress] := by
    rw [hval]
    exact ⟨_, rfl, rfl⟩
  obtain ⟨s', hrun, hexit⟩ : ∃ s', runCluster sampleParseIP s
      [.tickStart 0, .passStep 1 true, .passStep 1 true] = some s' ∧
      (s'.replicas[1]?).map Replica.loop = some .exited := by
    rw [hval]
    exact ⟨_, rfl, rfl⟩
  exact ⟨s, rep, s', hs, hrep, hloop, hrun, hexit,
    removal_pass_clears_address sampleParseIP hrep hloop (by simp) (by simp) hrun hexit⟩

/-! ## A tick -/

/-- No step adds an Ingress to the server or removes one. -/
@[simp] theorem getByKey_setStatus_isSome (ings : List Ingress) (k key : String)
    (st : List LoadBalancerIngress) :
    (getByKey Ingress.meta (setStatus ings k st) key).isSome =
      (getByKey Ingress.meta ings key).isSome := by
  simp [getByKey_setStatus]

/-- A write of `st` to `k` leaves `st` as the status of `key` if it was already, or if `key`
is `k`. -/
theorem statusOf_setStatus_of_eq {ings : List Ingress} {k key : String}
    {st : List LoadBalancerIngress} (h : statusOf ings key = st ∨ key = k)
    (hk : (getByKey Ingress.meta ings key).isSome) : statusOf (setStatus ings k st) key = st := by
  rw [statusOf_setStatus]
  split_ifs with h'
  · rfl
  · rcases h with h | h
    · exact h
    · exact absurd ⟨h, hk⟩ h'

section Tick

variable (parseIP : String → Bool)

theorem replicaStep_isSome {server server' : List Ingress} {rep rep' : Replica}
    {a : StatusAction} (hs : replicaStep parseIP server rep a = some (rep', server')) (key : String) :
    (getByKey Ingress.meta server' key).isSome = (getByKey Ingress.meta server key).isSome := by
  cases a <;> simp only [replicaStep] at hs <;> (repeat' split at hs) <;> cases hs <;> simp

theorem runCluster_isSome {acts : List StatusAction} (key : String) :
    ∀ {s s' : Cluster}, runCluster parseIP s acts = some s' →
      (getByKey Ingress.meta s'.ingresses key).isSome =
        (getByKey Ingress.meta s.ingresses key).isSome := by
  induction acts with
  | nil =>
    intro s s' h
    cases h
    rfl
  | cons a acts ih =>
    intro s s' h
    rw [runCluster_cons] at h
    obtain ⟨t, ht, hrun⟩ := Option.bind_eq_some.mp h
    obtain ⟨rep, rep', -, hrs, -⟩ := stepCluster_cases parseIP ht
    rw [ih hrun, replicaStep_isSome parseIP hrs key]

/-- A step that is neither a tick write nor a removal step leaves the server as it is. -/
theorem replicaStep_server {server server' : List Ingress} {rep rep' : Replica}
    {a : StatusAction} (hs : replicaStep parseIP server rep a = some (rep', server'))
    (hw : ∀ r ok, a ≠ .tickWrite r ok) (hp : ∀ r ok, a ≠ .passStep r ok) : server' = server := by
  cases a
  case tickWrite r ok => exact absurd rfl (hw r ok)
  case passStep r ok => exact absurd rfl (hp r ok)
  all_goals (simp only [replicaStep] at hs; (repeat' split at hs) <;> cases hs <;> rfl)

/-- One write of a tick, for `ing`, by a replica not stopped: the list is written when `ing`
is in scope and its cached status differs from it. -/
theorem tickWrite_eq {server : List Ingress} {rep : Replica} {r : Nat}
    {lbIngs : List LoadBalancerIngress} {ing : Ingress} {rest : List Ingress}
    (hloop : rep.loop = .updating lbIngs (ing :: rest)) (hlive : rep.stopped = false) :
    replicaStep parseIP server rep (.tickWrite r true) =
      some ({ rep with loop := .updating lbIngs rest },
        if rep.lbc.validateIngressClass ing = true ∧ ing.status ≠ lbIngs then
          setStatus server (metaNamespaceKey ing.meta) lbIngs else server) := by
  simp only [replicaStep, hloop, hlive, loadBalancerIngressesIPEqual]
  by_cases hv : rep.lbc.validateIngressClass ing = true <;> by_cases he : ing.status = lbIngs <;>
    simp [hv, he]

/-- Replica `r`, of the class of `lbc₀` and not stopped, is in a tick writing `lbIngs`, past
the Ingresses `done` of `ings`, or back in its `select` after all of them; every done
Ingress in scope whose cached status was not `lbIngs` has `lbIngs` on the server, if the
server has it. -/
def TickWritten (s : Cluster) (r : Nat) (lbc₀ : LoadBalancerController)
    (lbIngs : List LoadBalancerIngress) (ings : List Ingress) : Prop :=
  ∃ rep done rest, s.replicas[r]? = some rep ∧ rep.lbc.ingressClass = lbc₀.ingressClass ∧
    rep.stopped = false ∧ ings = done ++ rest ∧
    (rep.loop = .updating lbIngs rest ∨ (rest = [] ∧ rep.loop = .idle)) ∧
    ∀ ing ∈ done, lbc₀.validateIngressClass ing = true → ing.status ≠ lbIngs →
      (getByKey Ingress.meta s.ingresses (metaNamespaceKey ing.meta)).isSome →
      statusOf s.ingresses (metaNamespaceKey ing.meta) = lbIngs

/-- `TickWritten` is kept while only `r` writes, every write of `r` succeeds, and `r` neither
stops nor starts another tick. -/
theorem TickWritten.step {s t : Cluster} {r : Nat} {lbc₀ : LoadBalancerController}
    {lbIngs : List LoadBalancerIngress} {ings : List Ingress} {a : StatusAction}
    (hc : TickWritten s r lbc₀ lbIngs ings) (hs : stepCluster parseIP s a = some t)
    (hw : ∀ r' ok, a = .tickWrite r' ok → r' = r ∧ ok = true) (hp : ∀ r' ok, a ≠ .passStep r' ok)
    (hstop : a ≠ .stop r) (hstart : a ≠ .tickStart r) : TickWritten t r lbc₀ lbIngs ings := by
  obtain ⟨rep, done, rest, hrep, hcls, hlive, hings, hloop, hdone⟩ := hc
  obtain ⟨repa, rep', ha, hrs, ht, hother⟩ := stepCluster_cases parseIP hs
  by_cases hr : a.replica = r
  · rw [hr, hrep, Option.some.injEq] at ha
    subst ha
    rw [hr] at ht
    cases a with
    | tickStart r' => exact absurd (congrArg StatusAction.tickStart hr) hstart
    | stop r' => exact absurd (congrArg StatusAction.stop hr) hstop
    | passStep r' ok => exact absurd rfl (hp r' ok)
    | passStart r' => simp [replicaStep, hlive] at hrs
    | observe r' ings' pods nodes =>
      simp only [replicaStep] at hrs
      split at hrs
      · cases hrs
      · obtain ⟨rfl, hti⟩ := Prod.mk.inj (Option.some.inj hrs)
        exact ⟨_, done, rest, ht, hcls, hlive, hings, hloop, hti ▸ hdone⟩
    | tickWrite r' ok =>
      obtain ⟨-, rfl⟩ := hw r' ok rfl
      rcases hloop with hl | ⟨rfl, hl⟩
      · cases rest with
        | nil =>
          simp only [replicaStep, hl, Option.some.injEq, Prod.mk.injEq] at hrs
          obtain ⟨rfl, hti⟩ := hrs
          exact ⟨_, done, [], ht, hcls, hlive, hings, .inr ⟨rfl, rfl⟩, hti ▸ hdone⟩
        | cons ing rest' =>
          rw [tickWrite_eq parseIP hl hlive, Option.some.injEq, Prod.mk.injEq] at hrs
          obtain ⟨rfl, hti⟩ := hrs
          refine ⟨_, done ++ [ing], rest', ht, hcls, hlive, by simp [hings], .inl rfl,
            fun ing' hing' hv hne hsome => ?_⟩
          rw [← hti] at hsome ⊢
          have hsome' : (getByKey Ingress.meta s.ingresses (metaNamespaceKey ing'.meta)).isSome := by
            split_ifs at hsome <;> simpa using hsome
          split_ifs with hwr
          · refine statusOf_setStatus_of_eq ?_ hsome'
            rcases List.mem_append.mp hing' with hd | hnew
            · exact .inl (hdone ing' hd hv hne hsome')
            · exact .inr (by rw [List.mem_singleton.mp hnew])
          · rcases List.mem_append.mp hing' with hd | hnew
            · exact hdone ing' hd hv hne hsome'
            · rw [List.mem_singleton.mp hnew] at hv hne
              exact absurd ⟨by rw [validateIngressClass_congr hcls]; exact hv, hne⟩ hwr
      · simp [replicaStep, hl] at hrs
  · have hsrv := replicaStep_server parseIP hrs
      (fun r' ok h => hr (by rw [h]; exact (hw r' ok h).1)) hp
    exact ⟨rep, done, rest, (hother r hr).trans hrep, hcls, hlive, hings, hloop, hsrv ▸ hdone⟩

theorem TickWritten.run {r : Nat} {lbc₀ : LoadBalancerController}
    {lbIngs : List LoadBalancerIngress} {ings : List Ingress} {acts : List StatusAction} :
    ∀ {s s' : Cluster}, TickWritten s r lbc₀ lbIngs ings → runCluster parseIP s acts = some s' →
      (∀ a ∈ acts, ∀ r' ok, a = .tickWrite r' ok → r' = r ∧ ok = true) →
      (∀ a ∈ acts, ∀ r' ok, a ≠ .passStep r' ok) → .stop r ∉ acts → .tickStart r ∉ acts →
      TickWritten s' r lbc₀ lbIngs ings := by
  induction acts with
  | nil =>
    intro s s' hc h _ _ _ _
    cases h
    exact hc
  | cons a acts ih =>
    intro s s' hc h hw hp hstop hstart
    rw [runCluster_cons] at h
    obtain ⟨t, ht, hrun⟩ := Option.bind_eq_some.mp h
    have hstop' := not_or.mp (List.mem_cons.not.mp hstop)
    have hstart' := not_or.mp (List.mem_cons.not.mp hstart)
    exact ih (hc.step parseIP ht (hw a (List.mem_cons_self _ _)) (hp a (List.mem_cons_self _ _))
        (Ne.symm hstop'.1) (Ne.symm hstart'.1)) hrun
      (fun b hb => hw b (List.mem_cons_of_mem _ hb)) (fun b hb => hp b (List.mem_cons_of_mem _ hb))
      hstop'.2 hstart'.2

/-- A tick that runs to its end, with no `Stop` of its replica, every `UpdateStatus`
succeeding, and no other replica writing a status in the meantime, leaves on every
in-scope Ingress of its snapshot the list it computed, unless the cached status was that
list already (then it writes nothing). -/
theorem tick_writes_its_addresses {s s' : Cluster} {acts : List StatusAction} {r : Nat}
    {rep : Replica} {lbIngs : List LoadBalancerIngress} {ings : List Ingress}
    (hrep : s.replicas[r]? = some rep) (hloop : rep.loop = .updating lbIngs ings)
    (hlive : rep.stopped = false)
    (hw : ∀ a ∈ acts, ∀ r' ok, a = .tickWrite r' ok → r' = r ∧ ok = true)
    (hp : ∀ a ∈ acts, ∀ r' ok, a ≠ .passStep r' ok) (hstop : .stop r ∉ acts)
    (hstart : .tickStart r ∉ acts) (hrun : runCluster parseIP s acts = some s')
    (hidle : (s'.replicas[r]?).map Replica.loop = some .idle) :
    ∀ ing ∈ ings, rep.lbc.validateIngressClass ing = true → ing.status ≠ lbIngs →
      (getByKey Ingress.meta s.ingresses (metaNamespaceKey ing.meta)).isSome →
      statusOf s'.ingresses (metaNamespaceKey ing.meta) = lbIngs := by
  have hc : TickWritten s r rep.lbc lbIngs ings :=
    ⟨rep, [], ings, hrep, rfl, hlive, rfl, .inl hloop, by simp⟩
  obtain ⟨rep', done, rest, hrep', -, -, hings, hloop', hdone⟩ :=
    TickWritten.run parseIP hc hrun hw hp hstop hstart
  rw [hrep', Option.map_some', Option.some.injEq] at hidle
  obtain rfl : rest = [] := by
    rcases hloop' with hl | ⟨h, -⟩
    · rw [hl] at hidle
      cases hidle
    · exact h
  rw [List.append_nil] at hings
  subst hings
  intro ing hing hv hne hsome
  exact hdone ing hing hv hne (by rw [runCluster_isSome parseIP _ hrun]; exact hsome)

end Tick

/-! ## The replica's loop refines syncIngress of the single-process model -/

/-- Where syncIngress is, as `Lifecycle` sees it: a tick, the `select`, the removal pass,
or returned. -/
def LoopPc.statusPc : LoopPc → StatusPc
  | .idle => .select
  | .updating _ _ => .update
  | .removing _ _ => .remove
  | .exited => .returned

/-- The replica as a state of `Lifecycle`, its other goroutines as in `rt`. -/
def Replica.toRuntime (rep : Replica) (rt : Runtime) : Runtime :=
  { rt with status := rep.loop.statusPc, shutdown := rep.stopped, stopClosed := rep.stopped }

/-- The actions of `Lifecycle` that syncIngress and `Stop` take. -/
def Action.bySyncIngress : Action → Bool
  | .stop | .statusUpdate | .statusTimer | .statusStop | .statusRemoved => true
  | _ => false

section Refinement

variable (env : Env) (checkAndReload : CheckAndReload) (parseIP : String → Bool)

/-- What a step of a replica does to where its syncIngress is and to `stopped`: nothing
(an observation, a write, a tick that fails at once, or a step of the removal pass),
`Stop`, the start or the end of a tick, the start of the removal pass once stopped
(which ends at once when the address is not found), or the end of that pass. -/
theorem replicaStep_phase {server server' : List Ingress} {rep rep' : Replica}
    {a : StatusAction} (hs : replicaStep parseIP server rep a = some (rep', server')) :
    (rep'.stopped = rep.stopped ∧ rep'.loop.statusPc = rep.loop.statusPc) ∨
      (rep'.stopped = true ∧ rep'.loop = rep.loop) ∨
      (rep'.stopped = rep.stopped ∧ rep.loop.statusPc = .select ∧ rep'.loop.statusPc = .update) ∨
      (rep'.stopped = rep.stopped ∧ rep.loop.statusPc = .update ∧ rep'.loop.statusPc = .select) ∨
      (rep.stopped = true ∧ rep'.stopped = true ∧ rep.loop.statusPc = .select ∧
        (rep'.loop.statusPc = .remove ∨ rep'.loop.statusPc = .returned)) ∨
      (rep'.stopped = rep.stopped ∧ rep.loop.statusPc = .remove ∧ rep'.loop.statusPc = .returned) := by
  cases a <;> simp only [replicaStep] at hs <;> (repeat' split at hs) <;> cases hs <;>
    simp_all [LoopPc.statusPc]

/-- Each step of a replica is zero, one or two steps of syncIngress or `Stop` in
`Lifecycle`, from any state of Run's other goroutines once Run waits on `stopCh`. -/
theorem replicaStep_refines {server server' : List Ingress} {rep rep' : Replica}
    {a : StatusAction} (hs : replicaStep parseIP server rep a = some (rep', server'))
    {rt : Runtime} (hrun : rt.run = .waitStop) :
    ∃ acts, (∀ b ∈ acts, b.bySyncIngress = true) ∧
      runActions env checkAndReload (rep.toRuntime rt) acts = some (rep'.toRuntime rt) := by
  rcases replicaStep_phase parseIP hs with ⟨h₁, h₂⟩ | ⟨h₁, h₂⟩ | ⟨h₁, h₂, h₃⟩ | ⟨h₁, h₂, h₃⟩ |
    ⟨h₁, h₂, h₃, h₄ | h₄⟩ | ⟨h₁, h₂, h₃⟩
  · exact ⟨[], by decide, by simp [runActions, Replica.toRuntime, h₁, h₂]⟩
  · refine ⟨[.stop], by decide, ?_⟩
    cases h : rep.stopped <;>
      simp [runActions, NghttpxIngress.step, stepLive, Replica.toRuntime, hrun, h, h₁, h₂]
  · exact ⟨[.statusTimer], by decide, by
      simp [runActions, NghttpxIngress.step, stepLive, statusStep, Replica.toRuntime, hrun, h₁, h₂, h₃]⟩
  · exact ⟨[.statusUpdate], by decide, by
      simp [runActions, NghttpxIngress.step, stepLive, statusStep, Replica.toRuntime, hrun, h₁, h₂, h₃]⟩
  · exact ⟨[.statusStop], by decide, by
      simp [runActions, NghttpxIngress.step, stepLive, statusStep, Replica.toRuntime, hrun, h₁, h₂, h₃, h₄]⟩
  · exact ⟨[.statusStop, .statusRemoved], by decide, by
      simp [runActions, NghttpxIngress.step, stepLive, statusStep, Replica.toRuntime, hrun, h₁, h₂, h₃, h₄]⟩
  · exact ⟨[.statusRemoved], by decide, by
      simp [runActions, NghttpxIngress.step, stepLive, statusStep, Replica.toRuntime, hrun, h₁, h₂, h₃]⟩

/-- Over every run of the cluster, each replica's syncIngress, together with its `Stop`,
runs as syncIngress does in `Lifecycle`: its ticks, the timer's wake-ups, and a removal
pass that starts only once it is stopped and then returns. -/
theorem runCluster_refines {r : Nat} {rt : Runtime} (hrun : rt.run = .waitStop)
    {acts : List StatusAction} :
    ∀ {s s' : Cluster} {rep rep' : Replica}, runCluster parseIP s acts = some s' →
      s.replicas[r]? = some rep → s'.replicas[r]? = some rep' →
      ∃ acts', (∀ b ∈ acts', b.bySyncIngress = true) ∧
        runActions env checkAndReload (rep.toRuntime rt) acts' = some (rep'.toRuntime rt) := by
  induction acts with
  | nil =>
    intro s s' rep rep' h hrep hrep'
    cases h
    rw [hrep, Option.some.injEq] at hrep'
    subst hrep'
    exact ⟨[], by decide, rfl⟩
  | cons a acts ih =>
    intro s s' rep rep' h hrep hrep'
    rw [runCluster_cons] at h
    obtain ⟨t, ht, hrun'⟩ := Option.bind_eq_some.mp h
    obtain ⟨repa, rep'', ha, hrs, hta, hother⟩ := stepCluster_cases parseIP ht
    by_cases hr : a.replica = r
    · rw [hr, hrep, Option.some.injEq] at ha
      subst ha
      obtain ⟨acts₁, h₁, hrun₁⟩ := replicaStep_refines env checkAndReload parseIP hrs hrun
      obtain ⟨acts₂, h₂, hrun₂⟩ := ih hrun' (hr ▸ hta) hrep'
      refine ⟨acts₁ ++ acts₂, fun b hb => ?_, ?_⟩
      · rcases List.mem_append.mp hb with hb | hb
        · exact h₁ b hb
        · exact h₂ b hb
      · rw [runActions_append, hrun₁]
        exact hrun₂
    · exact ih hrun' ((hother r hr).trans hrep) hrep'

end Refinement

/-- Replica `b` of `tickThenPass`, from the start to its exit, as a run of syncIngress. -/
theorem sample_cluster_refines :
    ∃ s' rep', runCluster sampleParseIP (sampleCluster twoNodePods) tickThenPass = some s' ∧
      (sampleCluster twoNodePods).replicas[1]? = some (sampleReplica "b" twoNodePods) ∧
      s'.replicas[1]? = some rep' ∧
      ∃ acts', (∀ b ∈ acts', b.bySyncIngress = true) ∧
        runActions sampleEnv reloadOk ((sampleReplica "b" twoNodePods).toRuntime readyRuntime) acts' =
          some (rep'.toRuntime readyRuntime) := by
  obtain ⟨s', hs⟩ : ∃ s', runCluster sampleParseIP (sampleCluster twoNodePods) tickThenPass =
      some s' := ⟨_, rfl⟩
  obtain ⟨rep', hrep'⟩ : ∃ rep', s'.replicas[1]? = some rep' := by
    rw [Option.some.inj (hs.symm.trans rfl)]
    exact ⟨_, rfl⟩
  exact ⟨s', rep', hs, rfl, hrep', runCluster_refines sampleEnv reloadOk sampleParseIP rfl hs rfl hrep'⟩

/-- Replica `a` starts a tick; `b` starts one too and refreshes its caches while `a` writes
its list. -/
theorem sample_tick_writes_its_addresses :
    ∃ s rep s', runCluster sampleParseIP (sampleCluster twoNodePods) [.tickStart 0] = some s ∧
      s.replicas[0]? = some rep ∧
      rep.loop = .updating [⟨"10.0.0.1", ""⟩, ⟨"10.0.0.2", ""⟩] [statusIngress] ∧
      rep.stopped = false ∧
      runCluster sampleParseIP s [.tickStart 1, .tickWrite 0 true,
        .observe 1 [statusIngress] twoNodePods sampleNodes, .tickWrite 0 true] = some s' ∧
      (s'.replicas[0]?).map Replica.loop = some .idle ∧
      ∀ ing ∈ [statusIngress], rep.lbc.validateIngressClass ing = true →
        ing.status ≠ [⟨"10.0.0.1", ""⟩, ⟨"10.0.0.2", ""⟩] →
        (getByKey Ingress.meta s.ingresses (metaNamespaceKey ing.meta)).isSome →
        statusOf s'.ingresses (metaNamespaceKey ing.meta) =
          [⟨"10.0.0.1", ""⟩, ⟨"10.0.0.2", ""⟩] := by
  obtain ⟨s, hs⟩ : ∃ s, runCluster sampleParseIP (sampleCluster twoNodePods) [.tickStart 0] =
      some s := ⟨_, rfl⟩
  have hval := Option.some.inj (hs.symm.trans rfl)
  obtain ⟨rep, hrep, hloop, hlive⟩ : ∃ rep, s.replicas[0]? = some rep ∧
      rep.loop = .updating [⟨"10.0.0.1", ""⟩, ⟨"10.0.0.2", ""⟩] [statusIngress] ∧
      rep.stopped = false := by
    rw [hval]
    exact ⟨_, rfl, rfl, rfl⟩
  obtain ⟨s', hrun, hidle⟩ : ∃ s', runCluster sampleParseIP s [.tickStart 1, .tickWrite 0 true,
      .observe 1 [statusIngress] twoNodePods sampleNodes, .tickWrite 0 true] = some s' ∧
      (s'.replicas[0]?).map Replica.loop = some .idle := by
    rw [hval]
    exact ⟨_, rfl, rfl⟩
  exact ⟨s, rep, s', hs, hrep, hloop, hlive, hrun, hidle,
    tick_writes_its_addresses sampleParseIP hrep hloop hlive (by simp) (by simp) (by simp)
      (by simp) hrun hidle⟩

end NghttpxIngress
