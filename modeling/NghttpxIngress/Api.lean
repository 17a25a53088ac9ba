import Mathlib.Data.List.Basic

/-!
# Kubernetes objects as the controller reads them

Only the fields that `controller.go` reads are kept. A namespaced object carries an
`ObjectMeta` whose namespace is a DNS label, as the API server enforces, so the cache
key `namespace/name` determines both parts. An informer store is a list in its listing
order: a lister that returns objects in map order is modelled by the order of the list,
and a statement about every order quantifies over the list.
-/

namespace NghttpxIngress

/-- A DNS-1123 label without its length bound, the form of every namespace. -/
def isDNSLabel (s : String) : Bool :=
  !s.data.isEmpty && s.data.all (fun c => c.isLower || c.isDigit || c == '-')

structure ObjectMeta where
  ns : String
  name : String
  labels : List (String × String) := []
  annotations : List (String × String) := []
  valid : isDNSLabel ns = true
  deriving DecidableEq

/-- strconv.Itoa. -/
def itoa (i : Int) : String := i.repr

/-- intstr.IntOrString. -/
inductive IntOrString
  | int (intVal : Int)
  | str (strVal : String)
  deriving DecidableEq

/-- IntOrString.String(). -/
def IntOrString.toString : IntOrString → String
  | .int v => itoa v
  | .str s => s

inductive Protocol
  | tcp
  | udp
  deriving DecidableEq

structure ServicePort where
  name : String
  protocol : Protocol
  port : Int
  targetPort : IntOrString
  deriving DecidableEq

/-- A Service; `ports` and `selector` are `Spec.Ports` and `Spec.Selector`. -/
structure Service where
  meta : ObjectMeta
  ports : List ServicePort
  selector : List (String × String)
  deriving DecidableEq

structure EndpointPort where
  port : Int
  protocol : Protocol
  deriving DecidableEq

structure EndpointSubset where
  addresses : List String
  ports : List EndpointPort
  deriving DecidableEq

structure Endpoints where
  meta : ObjectMeta
  subsets : List EndpointSubset
  deriving DecidableEq

structure Secret where
  meta : ObjectMeta
  data : List (String × List UInt8)
  deriving DecidableEq

structure ConfigMap where
  meta : ObjectMeta
  data : List (String × String)
  deriving DecidableEq

structure ContainerPort where
  name : String
  containerPort : Int
  protocol : Protocol
  deriving DecidableEq

/-- A Pod; `nodeName` and `containerPorts` come from `Spec` (the ports of each container). -/
structure Pod where
  meta : ObjectMeta
  nodeName : String
  containerPorts : List (List ContainerPort)
  deriving DecidableEq

inductive NodeAddressType
  | hostName
  | externalIP
  | internalIP
  | legacyHostIP
  deriving DecidableEq

structure NodeAddress where
  type : NodeAddressType
  address : String
  deriving DecidableEq

/-- A Node is cluster scoped: its key is its name. -/
structure Node where
  name : String
  addresses : List NodeAddress
  deriving DecidableEq

structure LoadBalancerIngress where
  ip : String
  hostname : String
  deriving DecidableEq

structure IngressBackend where
  serviceName : String
  servicePort : IntOrString
  deriving DecidableEq

structure HTTPIngressPath where
  path : String
  backend : IngressBackend
  deriving DecidableEq

/-- An IngressRule; `http` is `none` when the rule has no `HTTP` value. -/
structure IngressRule where
  host : String
  http : Option (List HTTPIngressPath)
  deriving DecidableEq

/-- An Ingress; `tls` lists the secret names of `Spec.TLS`, `status` is
`Status.LoadBalancer.Ingress`. -/
structure Ingress where
  meta : ObjectMeta
  tls : List String
  rules : List IngressRule
  status : List LoadBalancerIngress
  deriving DecidableEq

/-- labels.Set(selector).AsSelector().Matches(labels.Set(l)). -/
def selectorMatches (selector labels : List (String × String)) : Bool :=
  selector.all (fun kv => labels.lookup kv.1 == some kv.2)

/-! ## Informer stores -/

section Store

variable {α : Type}

/-- cache.MetaNamespaceKeyFunc. -/
def metaNamespaceKey (m : ObjectMeta) : String :=
  if m.ns = "" then m.name else m.ns ++ "/" ++ m.name

/-- Store.GetByKey; the thread-safe store never returns an error. -/
def getByKey (meta : α → ObjectMeta) (store : List α) (key : String) : Option α :=
  store.find? (fun o => metaNamespaceKey (meta o) == key)

/-- The namespace index: `Lister.<Kind>s(ns).List(labels.Everything())`. -/
def listNamespace (meta : α → ObjectMeta) (store : List α) (ns : String) : List α :=
  store.filter (fun o => (meta o).ns == ns)

end Store

theorem not_mem_of_isDNSLabel {s : String} (h : isDNSLabel s = true) {c : Char}
    (hc : (c.isLower || c.isDigit || c == '-') = false) : c ∉ s.data := by
  intro hm
  simp only [isDNSLabel, Bool.and_eq_true, List.all_eq_true] at h
  rw [h.2 c hm] at hc
  exact Bool.noConfusion hc

theorem slash_not_mem {s : String} (h : isDNSLabel s = true) : '/' ∉ s.data :=
  not_mem_of_isDNSLabel h (by decide)

theorem underscore_not_mem {s : String} (h : isDNSLabel s = true) : '_' ∉ s.data :=
  not_mem_of_isDNSLabel h (by decide)

theorem ne_empty_of_isDNSLabel {s : String} (h : isDNSLabel s = true) : s ≠ "" := by
  rintro rfl
  exact Bool.noConfusion h

theorem metaNamespaceKey_eq (m : ObjectMeta) : metaNamespaceKey m = m.ns ++ "/" ++ m.name :=
  if_neg (ne_empty_of_isDNSLabel m.valid)

/-- A separator absent from both left parts splits a joined list uniquely. -/
theorem sep_inj {α : Type} {x : α} {l₁ l₂ r₁ r₂ : List α} (h₁ : x ∉ l₁) (h₂ : x ∉ l₂)
    (h : l₁ ++ x :: r₁ = l₂ ++ x :: r₂) : l₁ = l₂ ∧ r₁ = r₂ := by
  induction l₁ generalizing l₂ with
  | nil =>
    cases l₂ with
    | nil => simpa using h
    | cons y ys =>
      simp only [List.nil_append, List.cons_append, List.cons.injEq] at h
      exact absurd (h.1 ▸ List.mem_cons_self y ys) h₂
  | cons y ys ih =>
    cases l₂ with
    | nil =>
      simp only [List.nil_append, List.cons_append, List.cons.injEq] at h
      exact absurd (h.1 ▸ List.mem_cons_self y ys) h₁
    | cons z zs =>
      simp only [List.cons_append, List.cons.injEq] at h
      obtain ⟨rfl, rest⟩ := h
      have := ih (fun hm => h₁ (List.mem_cons_of_mem _ hm))
        (fun hm => h₂ (List.mem_cons_of_mem _ hm)) rest
      exact ⟨congrArg _ this.1, this.2⟩

theorem join_inj {a b c d : String} {sep : Char} (ha : sep ∉ a.data) (hc : sep ∉ c.data)
    (h : a ++ String.singleton sep ++ b = c ++ String.singleton sep ++ d) : a = c ∧ b = d := by
  have hd : a.data ++ sep :: b.data = c.data ++ sep :: d.data := by
    simpa [String.ext_iff] using h
  have := sep_inj ha hc hd
  exact ⟨String.ext this.1, String.ext this.2⟩

theorem namespacedKey_inj {a b c d : String} (ha : isDNSLabel a = true)
    (hc : isDNSLabel c = true) (h : a ++ "/" ++ b = c ++ "/" ++ d) : a = c ∧ b = d :=
  join_inj (slash_not_mem ha) (slash_not_mem hc) h

theorem metaNamespaceKey_inj {m m' : ObjectMeta} (h : metaNamespaceKey m = metaNamespaceKey m') :
    m.ns = m'.ns ∧ m.name = m'.name := by
  rw [metaNamespaceKey_eq, metaNamespaceKey_eq] at h
  exact namespacedKey_inj m.valid m'.valid h

section Store

variable {α : Type} {meta : α → ObjectMeta} {store : List α} {o : α}

theorem getByKey_key {key : String} (h : getByKey meta store key = some o) :
    metaNamespaceKey (meta o) = key := by
  simpa using List.find?_some h

/-- A lookup of `ns/name` finds an object of that namespace and name. -/
theorem getByKey_namespaced {ns name : String} (hns : isDNSLabel ns = true)
    (h : getByKey meta store (ns ++ "/" ++ name) = some o) :
    (meta o).ns = ns ∧ (meta o).name = name := by
  have hkey := getByKey_key h
  rw [metaNamespaceKey_eq] at hkey
  exact namespacedKey_inj (meta o).valid hns hkey

end Store

end NghttpxIngress
