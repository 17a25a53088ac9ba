import NghttpxIngress.Endpoints

/-!
# The Reference Index

A notification handler, evaluated on the snapshot after its informer changed the store,
returns whether it calls `enqueue(syncKey)`. The handlers are complete for the Config
Resolver: a change of an Ingress, Endpoints, Secret, ConfigMap or Pod after which
`syncConfig` differs is enqueued, unless a delete of an Ingress or a Pod is handed a stale
tombstone, whose earlier version those handlers test. The proof is a frame theorem (the
resolver reads Endpoints and Pods only for the Services it resolves and Secrets only
under the keys it resolves, `SameReads`) and, for each filter, that it accepts every
object under those keys. Services and Nodes have no handlers.
-/

namespace NghttpxIngress

/-- The argument of a delete handler: the object, a `cache.DeletedFinalStateUnknown`
tombstone holding its last known state, or anything else. -/
inductive DeleteArg (α : Type)
  | obj (o : α)
  | tombstone (o : α)
  | other

/-- The type assertions at the top of the delete handlers. -/
def DeleteArg.get? {α : Type} : DeleteArg α → Option α
  | .obj o => some o
  | .tombstone o => some o
  | .other => none

/-- What an informer hands to a handler. -/
inductive Event (α : Type)
  | add (obj : α)
  | update (old cur : α)
  | delete (arg : DeleteArg α)

/-- cache.ResourceEventHandlerFuncs; each function returns whether it enqueues. -/
structure ResourceEventHandlerFuncs (α : Type) where
  addFunc : α → Bool
  updateFunc : α → α → Bool
  deleteFunc : DeleteArg α → Bool

section Events

variable {α β : Type}

def ResourceEventHandlerFuncs.onEvent (h : ResourceEventHandlerFuncs α) : Event α → Bool
  | .add o => h.addFunc o
  | .update old cur => h.updateFunc old cur
  | .delete arg => h.deleteFunc arg

/-- The update handlers of Endpoints, Secrets and Pods: nothing when `reflect.DeepEqual`
holds, otherwise whether either version is of interest. -/
def updateNotification [DecidableEq α] (interested : α → Bool) (old cur : α) : Bool :=
  if old = cur then false else interested old || interested cur

/-- The delete handlers: unwrap a tombstone, then test the object. -/
def deleteNotification (interested : α → Bool) (arg : DeleteArg α) : Bool :=
  match arg.get? with
  | none => false
  | some o => interested o

/-- What a delete handler can be handed for the removal of the stored `o`: `o` itself, or
a tombstone holding some version of it. DeltaFIFO.Replace builds a tombstone from the
version its known objects hold, which an update queued before it may since have
replaced. -/
def DeleteArg.Removes (meta : α → ObjectMeta) (o : α) : DeleteArg α → Prop
  | .obj o' => o' = o
  | .tombstone o' => metaNamespaceKey (meta o') = metaNamespaceKey (meta o)
  | .other => False

theorem DeleteArg.Removes.exists_get {meta : α → ObjectMeta} {o : α} {arg : DeleteArg α}
    (h : arg.Removes meta o) :
    ∃ o', arg.get? = some o' ∧ metaNamespaceKey (meta o') = metaNamespaceKey (meta o) := by
  cases arg with
  | obj o' => exact ⟨o', rfl, congrArg (metaNamespaceKey ∘ meta) h⟩
  | tombstone o' => exact ⟨o', rfl, h⟩
  | other => exact h.elim

/-- The store change an event reports, in a store holding one object under a key: an
insertion under a new key, an in-place replacement under the same key, or the removal of
the object under a key. -/
inductive Applied (meta : α → ObjectMeta) : List α → Event α → List α → Prop
  | add (l₁ l₂ : List α) (o : α)
      (hnew : ∀ x ∈ l₁ ++ l₂, metaNamespaceKey (meta x) ≠ metaNamespaceKey (meta o)) :
      Applied meta (l₁ ++ l₂) (.add o) (l₁ ++ o :: l₂)
  | update (l₁ l₂ : List α) (old cur : α)
      (hkey : metaNamespaceKey (meta old) = metaNamespaceKey (meta cur)) :
      Applied meta (l₁ ++ old :: l₂) (.update old cur) (l₁ ++ cur :: l₂)
  | delete (l₁ l₂ : List α) (o : α) (arg : DeleteArg α)
      (hkey : ∀ x ∈ l₁ ++ l₂, metaNamespaceKey (meta x) ≠ metaNamespaceKey (meta o))
      (harg : arg.Removes meta o) :
      Applied meta (l₁ ++ o :: l₂) (.delete arg) (l₁ ++ l₂)

/-- The event touches only objects `p` rejects, or replaces an object by an equal one. -/
def Event.Ignored (p : α → Bool) : Event α → Prop
  | .add o => p o = false
  | .update old cur => old = cur ∨ (p old = false ∧ p cur = false)
  | .delete arg => ∀ o, arg.get? = some o → p o = false

/-- Every object a delete argument holds is in the store before the change: the argument
is not a stale tombstone. -/
def Event.Fresh (l : List α) : Event α → Prop
  | .delete arg => ∀ o, arg.get? = some o → o ∈ l
  | _ => True

theorem Event.Ignored.mono {p q : α → Bool} {e : Event α} (hi : e.Ignored p)
    (hq : ∀ o, q o = true → p o = true) : e.Ignored q := by
  have key : ∀ o, p o = false → q o = false := fun o hp =>
    Bool.eq_false_iff.mpr (fun hqo => by simp [hq o hqo] at hp)
  cases e with
  | add o => exact key o hi
  | update old cur => exact hi.imp_right (fun h => ⟨key old h.1, key cur h.2⟩)
  | delete arg => exact fun o ho => key o (hi o ho)

/-- In a store holding nothing else under the key of `o`, an object under that key is
`o`. -/
theorem eq_of_mem_of_key {meta : α → ObjectMeta} {l₁ l₂ : List α} {o o' : α}
    (hm : o' ∈ l₁ ++ o :: l₂)
    (hkey : ∀ x ∈ l₁ ++ l₂, metaNamespaceKey (meta x) ≠ metaNamespaceKey (meta o))
    (hk : metaNamespaceKey (meta o') = metaNamespaceKey (meta o)) : o' = o := by
  simp only [List.mem_append, List.mem_cons] at hm
  rcases hm with h | h | h
  · exact absurd hk (hkey o' (List.mem_append_left _ h))
  · exact h
  · exact absurd hk (hkey o' (List.mem_append_right _ h))

/-- A view of a store that skips the objects `p` rejects is unchanged by an ignored
event, when a delete's argument is not stale or `p` reads only the key. -/
theorem Applied.eq_of_ignored {meta : α → ObjectMeta} {l l' : List α} {e : Event α}
    {p : α → Bool} {F : List α → β}
    (hF : ∀ l₁ o l₂, p o = false → F (l₁ ++ o :: l₂) = F (l₁ ++ l₂))
    (hc : Applied meta l e l') (hi : e.Ignored p)
    (hd : e.Fresh l ∨ ∀ o o', metaNamespaceKey (meta o) = metaNamespaceKey (meta o') → p o = p o') :
    F l' = F l := by
  cases hc with
  | add l₁ l₂ o _ => exact hF l₁ o l₂ hi
  | update l₁ l₂ old cur _ =>
    rcases hi with rfl | ⟨hold, hcur⟩
    · rfl
    · rw [hF _ _ _ hcur, hF _ _ _ hold]
  | delete l₁ l₂ o arg hkey harg =>
    obtain ⟨o', ho', hk⟩ := harg.exists_get
    refine (hF l₁ o l₂ ?_).symm
    rcases hd with hfresh | hp
    · obtain rfl := eq_of_mem_of_key (hfresh o' ho') hkey hk
      exact hi o' ho'
    · exact (hp o' o hk).symm.trans (hi o' ho')

theorem find?_skip {p : α → Bool} (l₁ : List α) (o : α) (l₂ : List α) (h : p o = false) :
    (l₁ ++ o :: l₂).find? p = (l₁ ++ l₂).find? p := by
  rw [List.find?_append, List.find?_append, List.find?_cons_of_neg _ (by simp [h])]

theorem filter_skip {p : α → Bool} (l₁ : List α) (o : α) (l₂ : List α) (h : p o = false) :
    (l₁ ++ o :: l₂).filter p = (l₁ ++ l₂).filter p := by
  rw [List.filter_append, List.filter_append, List.filter_cons_of_neg (by simp [h])]

theorem filterMap_skip {f : α → Option β} (l₁ : List α) (o : α) (l₂ : List α)
    (h : (f o).isSome = false) : (l₁ ++ o :: l₂).filterMap f = (l₁ ++ l₂).filterMap f := by
  rw [List.filterMap_append, List.filterMap_append,
    List.filterMap_cons_none (Option.not_isSome_iff_eq_none.mp (by simp [h]))]

theorem ignored_of_updateNotification [DecidableEq α] {interested : α → Bool} {old cur : α}
    (h : updateNotification interested old cur = false) :
    (Event.update old cur).Ignored interested := by
  unfold updateNotification at h
  split at h
  · exact .inl ‹_›
  · exact .inr (by simpa using h)

theorem ignored_of_deleteNotification {interested : α → Bool} {arg : DeleteArg α}
    (h : deleteNotification interested arg = false) : (Event.delete arg).Ignored interested :=
  fun o ho => by simpa [deleteNotification, ho] using h

/-- A handler of the common shape that does not enqueue ignores the event. -/
theorem ignored_of_onEvent [DecidableEq α] {interested : α → Bool} {e : Event α}
    (h : (ResourceEventHandlerFuncs.mk interested (updateNotification interested)
      (deleteNotification interested)).onEvent e = false) : e.Ignored interested := by
  cases e with
  | add o => exact h
  | update old cur => exact ignored_of_updateNotification h
  | delete arg => exact ignored_of_deleteNotification h

end Events

/-- A change notified to the controller, by the informer that delivers it. -/
inductive Notification
  | ingress (e : Event Ingress)
  | endpoints (e : Event Endpoints)
  | secret (e : Event Secret)
  | configMap (e : Event ConfigMap)
  | pod (e : Event Pod)

namespace LoadBalancerController

variable (lbc : LoadBalancerController)

/-! ## The handlers -/

/-- The loop of endpointsReferenced and podReferenced: whether a path of an in-scope
Ingress of namespace `ns` satisfies `p`. -/
def ingressPathsAny (ns : String) (p : HTTPIngressPath → Bool) : Bool :=
  (listNamespace Ingress.meta lbc.ingLister ns).any (fun ing =>
    lbc.validateIngressClass ing && ing.rules.any (fun rule =>
      match rule.http with
      | none => false
      | some paths => paths.any p))

/-- endpointsReferenced. -/
def endpointsReferenced (ep : Endpoints) : Bool :=
  ep.meta.ns ++ "/" ++ ep.meta.name == lbc.defaultSvc ||
    lbc.ingressPathsAny ep.meta.ns (fun path => ep.meta.name == path.backend.serviceName)

/-- secretReferenced. -/
def secretReferenced (ns name : String) : Bool :=
  lbc.defaultTLSSecret == ns ++ "/" ++ name ||
    (listNamespace Ingress.meta lbc.ingLister ns).any (fun ing =>
      lbc.validateIngressClass ing && ing.tls.any (fun secretName => secretName == name))

/-- podReferenced: the default Service's selector matches the Pod, whatever its
namespace, or the Service of a path of an in-scope Ingress in the Pod's namespace does. -/
def podReferenced (pod : Pod) : Bool :=
  (match getByKey Service.meta lbc.svcLister lbc.defaultSvc with
    | some svc => selectorMatches svc.selector pod.meta.labels
    | none => false) ||
    lbc.ingressPathsAny pod.meta.ns (fun path =>
      match getByKey Service.meta lbc.svcLister (pod.meta.ns ++ "/" ++ path.backend.serviceName) with
      | some svc => selectorMatches svc.selector pod.meta.labels
      | none => false)

/-- The key test of the ConfigMap handlers. -/
def isNgxConfigMap (c : ConfigMap) : Bool :=
  c.meta.ns ++ "/" ++ c.meta.name == lbc.ngxConfigMap

def addIngressNotification (ing : Ingress) : Bool := lbc.validateIngressClass ing

/-- updateIngressNotification has no `reflect.DeepEqual` test. -/
def updateIngressNotification (old cur : Ingress) : Bool :=
  lbc.validateIngressClass old || lbc.validateIngressClass cur

def deleteIngressNotification : DeleteArg Ingress → Bool :=
  deleteNotification lbc.validateIngressClass

def addEndpointsNotification (ep : Endpoints) : Bool := lbc.endpointsReferenced ep

def updateEndpointsNotification : Endpoints → Endpoints → Bool :=
  updateNotification lbc.endpointsReferenced

def deleteEndpointsNotification : DeleteArg Endpoints → Bool :=
  deleteNotification lbc.endpointsReferenced

def addSecretNotification (s : Secret) : Bool := lbc.secretReferenced s.meta.ns s.meta.name

def updateSecretNotification : Secret → Secret → Bool :=
  updateNotification (fun s => lbc.secretReferenced s.meta.ns s.meta.name)

def deleteSecretNotification : DeleteArg Secret → Bool :=
  deleteNotification (fun s => lbc.secretReferenced s.meta.ns s.meta.name)

def addConfigMapNotification (c : ConfigMap) : Bool := lbc.isNgxConfigMap c

/-- updateConfigMapNotification tests the key of the current version only. -/
def updateConfigMapNotification (old cur : ConfigMap) : Bool :=
  if old = cur then false else lbc.isNgxConfigMap cur

def deleteConfigMapNotification : DeleteArg ConfigMap → Bool :=
  deleteNotification lbc.isNgxConfigMap

def addPodNotification (pod : Pod) : Bool := lbc.podReferenced pod

def updatePodNotification : Pod → Pod → Bool := updateNotification lbc.podReferenced

def deletePodNotification : DeleteArg Pod → Bool := deleteNotification lbc.podReferenced

/-- The registrations of NewLoadBalancerController. -/
def onNotification : Notification → Bool
  | .ingress e => (ResourceEventHandlerFuncs.mk lbc.addIngressNotification
      lbc.updateIngressNotification lbc.deleteIngressNotification).onEvent e
  | .endpoints e => (ResourceEventHandlerFuncs.mk lbc.addEndpointsNotification
      lbc.updateEndpointsNotification lbc.deleteEndpointsNotification).onEvent e
  | .secret e => (ResourceEventHandlerFuncs.mk lbc.addSecretNotification
      lbc.updateSecretNotification lbc.deleteSecretNotification).onEvent e
  | .configMap e => (ResourceEventHandlerFuncs.mk lbc.addConfigMapNotification
      lbc.updateConfigMapNotification lbc.deleteConfigMapNotification).onEvent e
  | .pod e => (ResourceEventHandlerFuncs.mk lbc.addPodNotification
      lbc.updatePodNotification lbc.deletePodNotification).onEvent e

/-- `lbc'` is `lbc` after the informer of the notification changed its store. -/
def Changes : Notification → LoadBalancerController → Prop
  | .ingress e, lbc' =>
    ∃ l, Applied Ingress.meta lbc.ingLister e l ∧ lbc' = { lbc with ingLister := l }
  | .endpoints e, lbc' =>
    ∃ l, Applied Endpoints.meta lbc.epLister e l ∧ lbc' = { lbc with epLister := l }
  | .secret e, lbc' =>
    ∃ l, Applied Secret.meta lbc.secretLister e l ∧ lbc' = { lbc with secretLister := l }
  | .configMap e, lbc' =>
    ∃ l, Applied ConfigMap.meta lbc.cmLister e l ∧ lbc' = { lbc with cmLister := l }
  | .pod e, lbc' =>
    ∃ l, Applied Pod.meta lbc.podLister e l ∧ lbc' = { lbc with podLister := l }

/-- A delete of an Ingress or a Pod is handed the object the store holds, not a stale
tombstone. The other delete handlers test only the key, which every version shares. -/
def DeliversStored : Notification → Prop
  | .ingress e => e.Fresh lbc.ingLister
  | .pod e => e.Fresh lbc.podLister
  | _ => True

/-! ## What the resolver reads -/

/-- The Services whose Endpoints and Pods the resolver may read: the default backend and
the backend of every path of an in-scope Ingress. -/
def ServiceRead (ings : List Ingress) (svc : Service) : Prop :=
  getByKey Service.meta lbc.svcLister lbc.defaultSvc = some svc ∨
    ∃ ing ∈ ings, lbc.validateIngressClass ing = true ∧ ∃ rule ∈ ing.rules, ∃ paths,
      rule.http = some paths ∧ ∃ path ∈ paths,
        getByKey Service.meta lbc.svcLister (ing.meta.ns ++ "/" ++ path.backend.serviceName) =
          some svc

/-- The keys under which the resolver may look a Secret up. -/
def SecretRead (ings : List Ingress) (key : String) : Prop :=
  key = lbc.defaultTLSSecret ∨
    ∃ ing ∈ ings, lbc.validateIngressClass ing = true ∧ ∃ name ∈ ing.tls,
      key = ing.meta.ns ++ "/" ++ name

end LoadBalancerController

/-- Two snapshots on which the resolver, run over `ings`, reads the same values. -/
structure SameReads (ings : List Ingress) (lbc lbc' : LoadBalancerController) : Prop where
  svcLister : lbc'.svcLister = lbc.svcLister
  defaultSvc : lbc'.defaultSvc = lbc.defaultSvc
  defaultTLSSecret : lbc'.defaultTLSSecret = lbc.defaultTLSSecret
  ingressClass : lbc'.ingressClass = lbc.ingressClass
  endpoints : ∀ svc, lbc.ServiceRead ings svc →
    lbc'.getServiceEndpoints svc = lbc.getServiceEndpoints svc
  targetPorts : ∀ svc, lbc.ServiceRead ings svc → ∀ sp ∈ svc.ports,
    lbc'.resolveTargetPort svc sp = lbc.resolveTargetPort svc sp
  secrets : ∀ key, lbc.SecretRead ings key →
    getByKey Secret.meta lbc'.secretLister key = getByKey Secret.meta lbc.secretLister key

namespace LoadBalancerController

/-! ## The frame theorem -/

section Frame

variable {env : Env} {lbc lbc' : LoadBalancerController} {ings : List Ingress}

theorem mapM_congr {α β ε : Type} {f g : α → Except ε β} :
    ∀ {l : List α}, (∀ x ∈ l, f x = g x) → l.mapM f = l.mapM g
  | [], _ => rfl
  | a :: l, h => by
    rw [List.mapM_cons, List.mapM_cons, h a (List.mem_cons_self a l),
      mapM_congr (fun x hx => h x (List.mem_cons_of_mem a hx))]

theorem resolveTargetPort_congr {svc : Service}
    (hp : lbc'.podsForService svc = lbc.podsForService svc) (sp : ServicePort) :
    lbc'.resolveTargetPort svc sp = lbc.resolveTargetPort svc sp := by
  simp only [resolveTargetPort_eq_toOption, getNamedPortFromPod, hp]

theorem getEndpoints_congr {svc : Service} {sp : ServicePort}
    (he : lbc'.getServiceEndpoints svc = lbc.getServiceEndpoints svc)
    (ht : lbc'.resolveTargetPort svc sp = lbc.resolveTargetPort svc sp)
    (proto : Protocol) (config : PortBackendConfig) :
    lbc'.getEndpoints svc sp proto config = lbc.getEndpoints svc sp proto config := by
  simp only [getEndpoints, he, ports_flatMap_subsetPortServers, ht]

theorem pathBackends_congr {svc : Service}
    (he : lbc'.getServiceEndpoints svc = lbc.getServiceEndpoints svc)
    (ht : ∀ sp ∈ svc.ports, lbc'.resolveTargetPort svc sp = lbc.resolveTargetPort svc sp)
    (bc : List (String × List (String × PortBackendConfig))) (path : HTTPIngressPath) :
    lbc'.pathBackends bc path svc = lbc.pathBackends bc path svc := by
  unfold pathBackends
  dsimp only
  cases hf : findServicePort svc path.backend.servicePort.toString with
  | none => rfl
  | some sp => exact getEndpoints_congr he (ht sp (List.mem_of_find?_eq_some hf)) _ _

theorem getTLSCredFromSecret_congr {key : String}
    (hk : getByKey Secret.meta lbc'.secretLister key = getByKey Secret.meta lbc.secretLister key) :
    lbc'.getTLSCredFromSecret env key = lbc.getTLSCredFromSecret env key := by
  simp only [getTLSCredFromSecret, hk]

end Frame

end LoadBalancerController

namespace SameReads

open LoadBalancerController

variable {env : Env} {lbc lbc' : LoadBalancerController} {ings : List Ingress}

theorem validateIngressClass (h : SameReads ings lbc lbc') (ing : Ingress) :
    lbc'.validateIngressClass ing = lbc.validateIngressClass ing := by
  simp only [LoadBalancerController.validateIngressClass, h.ingressClass]

theorem pathUpstream (h : SameReads ings lbc lbc') {ing : Ingress}
    {rule : IngressRule} {paths : List HTTPIngressPath} {path : HTTPIngressPath}
    (hi : ing ∈ ings) (hv : lbc.validateIngressClass ing = true) (hr : rule ∈ ing.rules)
    (hh : rule.http = some paths) (hp : path ∈ paths) (requireTLS : Bool)
    (cfg : List (String × List (String × PortBackendConfig))) :
    lbc'.pathUpstream ing requireTLS cfg rule path = lbc.pathUpstream ing requireTLS cfg rule path := by
  simp only [LoadBalancerController.pathUpstream, h.svcLister, h.defaultTLSSecret]
  cases hs : getByKey Service.meta lbc.svcLister (ing.meta.ns ++ "/" ++ path.backend.serviceName) with
  | none => simp
  | some svc =>
    have hread : lbc.ServiceRead ings svc := .inr ⟨ing, hi, hv, rule, hr, paths, hh, path, hp, hs⟩
    simp [pathBackends_congr (h.endpoints svc hread) (h.targetPorts svc hread)]

theorem ingressUpstreams (h : SameReads ings lbc lbc') {ing : Ingress}
    (hi : ing ∈ ings) : lbc'.ingressUpstreams env ing = lbc.ingressUpstreams env ing := by
  unfold LoadBalancerController.ingressUpstreams
  rw [h.validateIngressClass]
  cases hv : lbc.validateIngressClass ing with
  | false => simp
  | true =>
    have hcreds : lbc'.getTLSCredFromIngress env ing = lbc.getTLSCredFromIngress env ing :=
      mapM_congr (fun name hn => getTLSCredFromSecret_congr (h.secrets _ (.inr ⟨ing, hi, hv, name, hn, rfl⟩)))
    rw [hcreds]
    cases lbc.getTLSCredFromIngress env ing with
    | error _ => simp
    | ok pems =>
      refine congrArg (fun us => some (pems, us)) (List.flatMap_congr (fun rule hr => ?_))
      unfold LoadBalancerController.ruleUpstreams
      cases hh : rule.http with
      | none => rfl
      | some paths => exact List.filterMap_congr (fun path hp => h.pathUpstream hi hv hr hh hp _ _)

theorem defaultTLSCred (h : SameReads ings lbc lbc') :
    lbc'.defaultTLSCred env = lbc.defaultTLSCred env := by
  simp only [LoadBalancerController.defaultTLSCred, h.defaultTLSSecret,
    getTLSCredFromSecret_congr (h.secrets _ (.inl rfl))]

theorem getDefaultUpstream (h : SameReads ings lbc lbc') :
    lbc'.getDefaultUpstream = lbc.getDefaultUpstream := by
  simp only [LoadBalancerController.getDefaultUpstream, h.svcLister, h.defaultSvc, h.defaultTLSSecret]
  cases hs : getByKey Service.meta lbc.svcLister lbc.defaultSvc with
  | none => simp
  | some svc =>
    cases hp : svc.ports with
    | nil => simp only [hp]
    | cons sp _ =>
      simp only [hp, getEndpoints_congr (h.endpoints svc (.inl hs))
        (h.targetPorts svc (.inl hs) sp (hp ▸ List.mem_cons_self _ _))]

end SameReads

namespace LoadBalancerController

section Frame

variable {env : Env} {lbc lbc' : LoadBalancerController} {ings : List Ingress}

/-- The resolver's result is a function of what it reads. -/
theorem getUpstreamServers_congr (h : SameReads ings lbc lbc') :
    lbc'.getUpstreamServers env ings = lbc.getUpstreamServers env ings := by
  have hf : ings.filterMap (lbc'.ingressUpstreams env) = ings.filterMap (lbc.ingressUpstreams env) :=
    List.filterMap_congr (fun _ hi => h.ingressUpstreams hi)
  simp only [getUpstreamServers, collectPems, collectUpstreams, addDefaultUpstream, hf,
    h.defaultTLSCred, h.getDefaultUpstream]

end Frame

/-! ## The filters cover the reads -/

section Coverage

variable {lbc : LoadBalancerController}

theorem ingressPathsAny_of_mem {ns : String} {p : HTTPIngressPath → Bool} {ing : Ingress}
    {rule : IngressRule} {paths : List HTTPIngressPath} {path : HTTPIngressPath}
    (hi : ing ∈ lbc.ingLister) (hns : ing.meta.ns = ns) (hv : lbc.validateIngressClass ing = true)
    (hr : rule ∈ ing.rules) (hh : rule.http = some paths) (hp : path ∈ paths)
    (hpath : p path = true) : lbc.ingressPathsAny ns p = true :=
  List.any_eq_true.mpr ⟨ing, List.mem_filter.mpr ⟨hi, by simp [hns]⟩, by
    rw [hv, Bool.true_and]
    exact List.any_eq_true.mpr ⟨rule, hr, by rw [hh]; exact List.any_eq_true.mpr ⟨path, hp, hpath⟩⟩⟩

theorem endpointsReferenced_of_read {svc : Service} {ep : Endpoints}
    (hr : lbc.ServiceRead lbc.ingLister svc) (hname : svc.meta.name = ep.meta.name)
    (hns : svc.meta.ns = ep.meta.ns) : lbc.endpointsReferenced ep = true := by
  rcases hr with hd | ⟨ing, hi, hv, rule, hrule, paths, hh, path, hp, hs⟩
  · have hkey := getByKey_key hd
    rw [metaNamespaceKey_eq, hname, hns] at hkey
    simp [endpointsReferenced, hkey]
  · obtain ⟨hsns, hsname⟩ := getByKey_namespaced ing.meta.valid hs
    refine Bool.or_eq_true_iff.mpr (.inr (ingressPathsAny_of_mem hi (hsns ▸ hns) hv hrule hh hp ?_))
    simp [← hname, hsname]

theorem podReferenced_of_read {svc : Service} {pod : Pod}
    (hr : lbc.ServiceRead lbc.ingLister svc) (hns : pod.meta.ns = svc.meta.ns)
    (hsel : selectorMatches svc.selector pod.meta.labels = true) :
    lbc.podReferenced pod = true := by
  rcases hr with hd | ⟨ing, hi, hv, rule, hrule, paths, hh, path, hp, hs⟩
  · simp [podReferenced, hd, hsel]
  · obtain ⟨hsns, -⟩ := getByKey_namespaced ing.meta.valid hs
    have hpod : pod.meta.ns = ing.meta.ns := hns.trans hsns
    refine Bool.or_eq_true_iff.mpr (.inr (ingressPathsAny_of_mem hi hpod.symm hv hrule hh hp ?_))
    simp only [hpod, hs, hsel]

theorem secretReferenced_of_read {key : String} {s : Secret}
    (hr : lbc.SecretRead lbc.ingLister key) (hk : metaNamespaceKey s.meta = key) :
    lbc.secretReferenced s.meta.ns s.meta.name = true := by
  rw [metaNamespaceKey_eq] at hk
  rcases hr with rfl | ⟨ing, hi, hv, name, hn, rfl⟩
  · simp [secretReferenced, hk]
  · obtain ⟨hns, rfl⟩ := namespacedKey_inj s.meta.valid ing.meta.valid hk
    refine Bool.or_eq_true_iff.mpr (.inr (List.any_eq_true.mpr
      ⟨ing, List.mem_filter.mpr ⟨hi, by simp [hns]⟩, ?_⟩))
    simpa [hv] using hn

theorem isNgxConfigMap_of_key {c : ConfigMap} (hk : metaNamespaceKey c.meta = lbc.ngxConfigMap) :
    lbc.isNgxConfigMap c = true := by
  simp [isNgxConfigMap, ← hk, metaNamespaceKey_eq]

end Coverage

/-! ## Completeness -/

section Completeness

variable {env : Env} {lbc : LoadBalancerController}

/-- The resolver reads the Ingresses only through what each contributes. -/
theorem getUpstreamServers_of_contributions_eq {ings ings' : List Ingress}
    (h : ings'.filterMap (lbc.ingressUpstreams env) = ings.filterMap (lbc.ingressUpstreams env)) :
    lbc.getUpstreamServers env ings' = lbc.getUpstreamServers env ings := by
  simp only [getUpstreamServers, collectPems, collectUpstreams, h]

theorem ingressUpstreams_isSome {ing : Ingress} (h : (lbc.ingressUpstreams env ing).isSome = true) :
    lbc.validateIngressClass ing = true := by
  by_contra hv
  simp [ingressUpstreams, hv] at h

theorem syncConfig_ingress_frame {e : Event Ingress} {l : List Ingress}
    (hc : Applied Ingress.meta lbc.ingLister e l) (hi : e.Ignored lbc.validateIngressClass)
    (hf : e.Fresh lbc.ingLister) :
    syncConfig env { lbc with ingLister := l } = syncConfig env lbc := by
  have hsame : SameReads l lbc { lbc with ingLister := l } :=
    ⟨rfl, rfl, rfl, rfl, fun _ _ => rfl, fun _ _ _ _ => rfl, fun _ _ => rfl⟩
  refine Prod.ext ((getUpstreamServers_congr hsame).trans ?_) rfl
  exact getUpstreamServers_of_contributions_eq
    (hc.eq_of_ignored filterMap_skip (hi.mono fun _ => ingressUpstreams_isSome) (.inl hf))

theorem syncConfig_endpoints_frame {e : Event Endpoints} {l : List Endpoints}
    (hc : Applied Endpoints.meta lbc.epLister e l) (hi : e.Ignored lbc.endpointsReferenced) :
    syncConfig env { lbc with epLister := l } = syncConfig env lbc := by
  have hsame : SameReads lbc.ingLister lbc { lbc with epLister := l } :=
    ⟨rfl, rfl, rfl, rfl, fun svc hr => hc.eq_of_ignored find?_skip (hi.mono fun ep hp => by
      simp only [Bool.and_eq_true, beq_iff_eq] at hp
      exact endpointsReferenced_of_read hr hp.1 hp.2) (.inr fun ep ep' hk => by
      obtain ⟨hns, hname⟩ := metaNamespaceKey_inj hk
      simp only [hns, hname]), fun _ _ _ _ => rfl, fun _ _ => rfl⟩
  exact Prod.ext (getUpstreamServers_congr hsame) rfl

theorem syncConfig_secret_frame {e : Event Secret} {l : List Secret}
    (hc : Applied Secret.meta lbc.secretLister e l)
    (hi : e.Ignored (fun s => lbc.secretReferenced s.meta.ns s.meta.name)) :
    syncConfig env { lbc with secretLister := l } = syncConfig env lbc := by
  have hsame : SameReads lbc.ingLister lbc { lbc with secretLister := l } :=
    ⟨rfl, rfl, rfl, rfl, fun _ _ => rfl, fun _ _ _ _ => rfl, fun key hr =>
      hc.eq_of_ignored find?_skip (hi.mono fun s hk => secretReferenced_of_read hr (by simpa using hk))
        (.inr fun s s' hk => by simp only [hk])⟩
  exact Prod.ext (getUpstreamServers_congr hsame) rfl

theorem syncConfig_pod_frame {e : Event Pod} {l : List Pod}
    (hc : Applied Pod.meta lbc.podLister e l) (hi : e.Ignored lbc.podReferenced)
    (hf : e.Fresh lbc.podLister) :
    syncConfig env { lbc with podLister := l } = syncConfig env lbc := by
  have hpods : ∀ svc, lbc.ServiceRead lbc.ingLister svc →
      ({ lbc with podLister := l } : LoadBalancerController).podsForService svc =
        lbc.podsForService svc := fun svc hr =>
    hc.eq_of_ignored filter_skip (hi.mono fun pod hp => by
      simp only [Bool.and_eq_true, beq_iff_eq] at hp
      exact podReferenced_of_read hr hp.1 hp.2) (.inl hf)
  have hsame : SameReads lbc.ingLister lbc { lbc with podLister := l } :=
    ⟨rfl, rfl, rfl, rfl, fun _ _ => rfl, fun svc hr sp _ => resolveTargetPort_congr (hpods svc hr) sp,
      fun _ _ => rfl⟩
  exact Prod.ext (getUpstreamServers_congr hsame) rfl

theorem syncConfig_configMap_frame {e : Event ConfigMap} {l : List ConfigMap}
    (hc : Applied ConfigMap.meta lbc.cmLister e l) (hi : e.Ignored lbc.isNgxConfigMap) :
    syncConfig env { lbc with cmLister := l } = syncConfig env lbc := by
  have hsame : SameReads lbc.ingLister lbc { lbc with cmLister := l } :=
    ⟨rfl, rfl, rfl, rfl, fun _ _ => rfl, fun _ _ _ _ => rfl, fun _ _ => rfl⟩
  refine Prod.ext (getUpstreamServers_congr hsame) ?_
  show (if lbc.ngxConfigMap = "" then none else getByKey ConfigMap.meta l lbc.ngxConfigMap) =
    lbc.getConfigMap lbc.ngxConfigMap
  unfold getConfigMap
  split
  · rfl
  · exact hc.eq_of_ignored find?_skip (hi.mono fun c hk => isNgxConfigMap_of_key (by simpa using hk))
      (.inr fun c c' hk => by simp only [hk])

/-- The ConfigMap update handler tests only the current version; an update keeps the
key, so it ignores exactly what the common shape ignores. -/
theorem updateConfigMapNotification_ignored {old cur : ConfigMap}
    (hkey : metaNamespaceKey old.meta = metaNamespaceKey cur.meta)
    (h : lbc.updateConfigMapNotification old cur = false) :
    (Event.update old cur).Ignored lbc.isNgxConfigMap := by
  have hsame : lbc.isNgxConfigMap old = lbc.isNgxConfigMap cur := by
    simp only [isNgxConfigMap, ← metaNamespaceKey_eq, hkey]
  unfold updateConfigMapNotification at h
  split at h
  · exact .inl ‹_›
  · exact .inr ⟨hsame.trans h, h⟩

theorem ignored_of_configMap_handlers {l l' : List ConfigMap} {e : Event ConfigMap}
    (hc : Applied ConfigMap.meta l e l')
    (hf : (ResourceEventHandlerFuncs.mk lbc.addConfigMapNotification
      lbc.updateConfigMapNotification lbc.deleteConfigMapNotification).onEvent e = false) :
    e.Ignored lbc.isNgxConfigMap := by
  cases hc with
  | add l₁ l₂ o _ => exact hf
  | update l₁ l₂ old cur hkey => exact updateConfigMapNotification_ignored hkey hf
  | delete l₁ l₂ o arg _ _ => exact ignored_of_deleteNotification hf

/-- A handler that does not enqueue, handed the stored object on a delete, sees a change
after which `syncConfig` is the same. -/
theorem syncConfig_of_not_enqueued {n : Notification} {lbc' : LoadBalancerController}
    (hc : lbc.Changes n lbc') (hs : lbc.DeliversStored n) (hf : lbc'.onNotification n = false) :
    syncConfig env lbc' = syncConfig env lbc := by
  cases n with
  | ingress e =>
    obtain ⟨l, hc, rfl⟩ := hc
    refine syncConfig_ingress_frame hc ?_ hs
    cases e with
    | add o => exact hf
    | update old cur => exact .inr (by simpa [onNotification, ResourceEventHandlerFuncs.onEvent,
        updateIngressNotification] using hf)
    | delete arg => exact ignored_of_deleteNotification hf
  | endpoints e =>
    obtain ⟨l, hc, rfl⟩ := hc
    exact syncConfig_endpoints_frame hc (ignored_of_onEvent hf)
  | secret e =>
    obtain ⟨l, hc, rfl⟩ := hc
    exact syncConfig_secret_frame hc (ignored_of_onEvent hf)
  | configMap e =>
    obtain ⟨l, hc, rfl⟩ := hc
    exact syncConfig_configMap_frame hc (ignored_of_configMap_handlers hc hf)
  | pod e =>
    obtain ⟨l, hc, rfl⟩ := hc
    exact syncConfig_pod_frame hc (ignored_of_onEvent hf) hs

/-- Every change of an Ingress, Endpoints, Secret, ConfigMap or Pod after which the
configuration built by sync differs is enqueued by its handler, unless it is the delete
of an Ingress or a Pod handed a stale tombstone. -/
theorem notification_enqueues_on_config_change {n : Notification}
    {lbc' : LoadBalancerController} (hc : lbc.Changes n lbc') (hs : lbc.DeliversStored n)
    (hne : syncConfig env lbc ≠ syncConfig env lbc') : lbc'.onNotification n = true := by
  by_contra hf
  exact hne (syncConfig_of_not_enqueued hc hs (Bool.not_eq_true _ ▸ hf)).symm

theorem sample_ingress_add_enqueues :
    (sampleController []).Changes (.ingress (.add (catchAllIngress "a" [])))
        (sampleController [catchAllIngress "a" []]) ∧
      (sampleController []).DeliversStored (.ingress (.add (catchAllIngress "a" []))) ∧
      syncConfig sampleEnv (sampleController []) ≠
        syncConfig sampleEnv (sampleController [catchAllIngress "a" []]) ∧
      (sampleController [catchAllIngress "a" []]).onNotification
        (.ingress (.add (catchAllIngress "a" []))) = true := by
  have hc : (sampleController []).Changes (.ingress (.add (catchAllIngress "a" [])))
      (sampleController [catchAllIngress "a" []]) :=
    ⟨[catchAllIngress "a" []], Applied.add [] [] _ (by simp), rfl⟩
  have hne : syncConfig sampleEnv (sampleController []) ≠
      syncConfig sampleEnv (sampleController [catchAllIngress "a" []]) :=
    fun h => absurd (congrArg (fun p => p.1.toOption) h) (by decide)
  exact ⟨hc, trivial, hne, notification_enqueues_on_config_change hc trivial hne⟩

/-- Ingress `default/a` before it joined the class `nghttpx`: the version a relist's
tombstone holds when the update that brought `default/a` into the class was still
queued. -/
def staleCatchAllIngress : Ingress :=
  { catchAllIngress "a" [] with
    meta := { sampleMeta "a" with annotations := [(ingressClassKey, "gce")] } }

theorem stale_tombstone_not_enqueued :
    (sampleController [catchAllIngress "a" []]).Changes
        (.ingress (.delete (.tombstone staleCatchAllIngress))) (sampleController []) ∧
      syncConfig sampleEnv (sampleController [catchAllIngress "a" []]) ≠
        syncConfig sampleEnv (sampleController []) ∧
      (sampleController []).onNotification
        (.ingress (.delete (.tombstone staleCatchAllIngress))) = false :=
  ⟨⟨[], Applied.delete [] [] _ _ (by simp) rfl, rfl⟩,
    fun h => absurd (congrArg (fun p => p.1.toOption) h) (by decide), by decide⟩

end Completeness

end LoadBalancerController

end NghttpxIngress
