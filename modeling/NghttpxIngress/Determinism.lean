import NghttpxIngress.ReferenceIndex

/-!
# The Config Resolver under reordered listings

Listers return objects in map order. Permuting the Ingress list leaves every failure and
the TLS part of the configuration unchanged and permutes the Upstreams only among those
sharing a name: `sort.Slice` orders by name alone and Go promises no stability, so two
Ingresses that name the same service, port, host and path may swap. Permuting the Pod
cache changes nothing as long as the Pods each resolved Service selects agree on its
named target ports, since getNamedPortFromPod reads the first of them.
-/

namespace NghttpxIngress

section Lists

variable {α : Type}

theorem forall₂_ok_eq_map {ε : Type} {f : α → Except ε α} :
    ∀ {l us : List α}, List.Forall₂ (fun a b => f a = .ok b) l us →
      us = l.map (fun a => (f a).toOption.getD a)
  | _, _, .nil => rfl
  | _, _, .cons h t => by
    rw [List.map_cons, ← forall₂_ok_eq_map t]
    simp [h, Except.toOption]

/-- Where the elements passing `p` agree under `g`, `(find? p).bind g` does not depend on
the order. -/
theorem find?_bind_eq_of_perm {β : Type} {p : α → Bool} {g : α → Option β} {l l' : List α}
    (hp : l.Perm l') (hu : ∀ a ∈ l, ∀ b ∈ l, p a = true → p b = true → g a = g b) :
    (l'.find? p).bind g = (l.find? p).bind g := by
  cases h : l.find? p with
  | none =>
    rw [List.find?_eq_none] at h
    rw [List.find?_eq_none.mpr fun x hx => h x (hp.symm.subset hx)]
  | some a =>
    have ha := List.mem_of_find?_eq_some h
    cases h' : l'.find? p with
    | none => exact absurd (List.find?_some h) (List.find?_eq_none.mp h' a (hp.subset ha))
    | some b =>
      exact hu b (hp.symm.subset (List.mem_of_find?_eq_some h')) a ha (List.find?_some h')
        (List.find?_some h)

/-- Two sorted permutations of each other agree when elements with the same key are equal. -/
theorem eq_of_perm_of_sorted_key {β : Type} [LinearOrder β] (k : α → β) :
    ∀ {l l' : List α}, l.Perm l' → l.Sorted (fun a b => k a ≤ k b) →
      l'.Sorted (fun a b => k a ≤ k b) → (∀ a ∈ l, ∀ b ∈ l, k a = k b → a = b) → l = l'
  | [], _, hp, _, _, _ => (List.perm_nil.mp hp.symm).symm
  | _ :: _, [], hp, _, _, _ => absurd hp.length_eq (by simp)
  | a :: t, a' :: t', hp, hs, hs', hk => by
    have ha' : a' ∈ a :: t := hp.symm.subset (List.mem_cons_self _ _)
    have ha : a ∈ a' :: t' := hp.subset (List.mem_cons_self _ _)
    have h₁ : k a ≤ k a' := by
      rcases List.mem_cons.mp ha' with h | h
      · rw [h]
      · exact List.rel_of_sorted_cons hs _ h
    have h₂ : k a' ≤ k a := by
      rcases List.mem_cons.mp ha with h | h
      · rw [h]
      · exact List.rel_of_sorted_cons hs' _ h
    obtain rfl := hk a (List.mem_cons_self _ _) a' ha' (le_antisymm h₁ h₂)
    rw [eq_of_perm_of_sorted_key k hp.cons_inv hs.of_cons hs'.of_cons
      (fun x hx y hy => hk x (List.mem_cons_of_mem _ hx) y (List.mem_cons_of_mem _ hy))]

end Lists

namespace LoadBalancerController

variable {env : Env} {lbc : LoadBalancerController}

theorem createTLSCredFromSecret_key_path {secret : Secret} {c : TLSCred}
    (h : createTLSCredFromSecret env secret = .ok c) :
    c.key.path = createTLSKeyPath (tlsCredPrefix secret) := by
  unfold createTLSCredFromSecret at h
  split at h
  · cases h
  · cases h
  · split at h
    · cases h
    · cases h
    · split at h
      · cases h
      · cases h
        exact createTLSCred_key_path ‹_›

/-- Within one snapshot a credential is determined by its key path. -/
theorem getTLSCredFromSecret_key_path_inj {k₁ k₂ : String} {c₁ c₂ : TLSCred}
    (h₁ : lbc.getTLSCredFromSecret env k₁ = .ok c₁) (h₂ : lbc.getTLSCredFromSecret env k₂ = .ok c₂)
    (hpath : c₁.key.path = c₂.key.path) : c₁ = c₂ := by
  unfold getTLSCredFromSecret at h₁ h₂
  cases hs₁ : getByKey Secret.meta lbc.secretLister k₁ with
  | none => rw [hs₁] at h₁; cases h₁
  | some s₁ =>
    cases hs₂ : getByKey Secret.meta lbc.secretLister k₂ with
    | none => rw [hs₂] at h₂; cases h₂
    | some s₂ =>
      rw [hs₁] at h₁
      rw [hs₂] at h₂
      rw [createTLSCredFromSecret_key_path h₁, createTLSCredFromSecret_key_path h₂] at hpath
      obtain ⟨hns, hname⟩ := tlsCredPrefix_inj (createTLSKeyPath_inj hpath)
      have hkey : k₁ = k₂ := by
        rw [← getByKey_key hs₁, ← getByKey_key hs₂, metaNamespaceKey_eq, metaNamespaceKey_eq,
          hns, hname]
      subst hkey
      rw [hs₁] at hs₂
      cases hs₂
      exact Except.ok.inj (h₁.symm.trans h₂)

theorem mem_getTLSCredFromIngress {ing : Ingress} {creds : List TLSCred} {c : TLSCred}
    (h : lbc.getTLSCredFromIngress env ing = .ok creds) (hc : c ∈ creds) :
    ∃ k, lbc.getTLSCredFromSecret env k = .ok c := by
  obtain ⟨name, -, hk⟩ := forall₂_exists_of_mem_left (mapM_eq_ok h).flip hc
  exact ⟨_, hk⟩

theorem collectPems_key_path_inj {ings : List Ingress} {c₁ c₂ : TLSCred}
    (h₁ : c₁ ∈ lbc.collectPems env ings) (h₂ : c₂ ∈ lbc.collectPems env ings)
    (hpath : c₁.key.path = c₂.key.path) : c₁ = c₂ := by
  obtain ⟨ing₁, -, r₁, hr₁, hc₁⟩ := mem_collectPems.mp h₁
  obtain ⟨ing₂, -, r₂, hr₂, hc₂⟩ := mem_collectPems.mp h₂
  obtain ⟨-, creds₁, hcreds₁, hc₁⟩ := ingressUpstreams_pems.mp ⟨r₁, hr₁, hc₁⟩
  obtain ⟨-, creds₂, hcreds₂, hc₂⟩ := ingressUpstreams_pems.mp ⟨r₂, hr₂, hc₂⟩
  obtain ⟨k₁, hk₁⟩ := mem_getTLSCredFromIngress hcreds₁ hc₁
  obtain ⟨k₂, hk₂⟩ := mem_getTLSCredFromIngress hcreds₂ hc₂
  exact getTLSCredFromSecret_key_path_inj hk₁ hk₂ hpath

theorem getUpstreamServers_error {ings : List Ingress} {e : Failure} :
    lbc.getUpstreamServers env ings = .error e ↔
      (∃ m, lbc.defaultTLSCred env = .error m ∧ e = .error m) ∨
        ((lbc.defaultTLSCred env).toOption.isSome ∧
          lbc.addDefaultUpstream (lbc.collectUpstreams env ings) = .error e) := by
  unfold getUpstreamServers
  cases hd : lbc.defaultTLSCred env with
  | error m =>
    simp only [Except.mapError, bind, Except.bind]
    constructor
    · rintro ⟨⟩
      exact .inl ⟨m, rfl, rfl⟩
    · rintro (⟨m', ⟨⟩, rfl⟩ | ⟨⟨⟩, -⟩)
      rfl
  | ok d =>
    cases ha : lbc.addDefaultUpstream (lbc.collectUpstreams env ings) with
    | error f => simp [Except.mapError, bind, Except.bind, Except.toOption]
    | ok ups =>
      obtain ⟨us, hus⟩ := normalize_ok ha
      simp only [Except.mapError, bind, Except.bind]
      rw [hus]
      simp [pure, Except.pure]

section Perm

variable {ings ings' : List Ingress}

theorem collectUpstreams_perm (hp : ings.Perm ings') :
    (lbc.collectUpstreams env ings).Perm (lbc.collectUpstreams env ings') :=
  (hp.filterMap _).flatMap_right _

theorem collectPems_perm (hp : ings.Perm ings') :
    (lbc.collectPems env ings).Perm (lbc.collectPems env ings') :=
  (hp.filterMap _).flatMap_right _

theorem addDefaultUpstream_perm {us us' : List Upstream} (hp : us.Perm us') :
    (∀ e, lbc.addDefaultUpstream us = .error e ↔ lbc.addDefaultUpstream us' = .error e) ∧
      ∀ ups ups', lbc.addDefaultUpstream us = .ok ups → lbc.addDefaultUpstream us' = .ok ups' →
        ups.Perm ups' := by
  have hany : us.any isDefaultUpstream = us'.any isDefaultUpstream :=
    Bool.eq_iff_iff.mpr (by simp only [List.any_eq_true, hp.mem_iff])
  unfold addDefaultUpstream
  rw [hany]
  split
  · exact ⟨fun e => ⟨fun h => (by cases h), fun h => (by cases h)⟩,
      fun ups ups' h h' => by cases h; cases h'; exact hp⟩
  · cases lbc.getDefaultUpstream with
    | error e => exact ⟨fun _ => Iff.rfl, fun ups ups' h => by cases h⟩
    | ok d =>
      exact ⟨fun e => ⟨fun h => (by cases h), fun h => (by cases h)⟩,
        fun ups ups' h h' => by cases h; cases h'; exact hp.append_right [d]⟩

/-- Reordering the Ingresses changes no failure, no TLS field, and the Upstream list only
up to order; the configuration is identical when same-named Upstreams are equal. -/
theorem getUpstreamServers_perm_ingresses (hp : ings.Perm ings') :
    (∀ e, lbc.getUpstreamServers env ings = .error e ↔ lbc.getUpstreamServers env ings' = .error e) ∧
      ∀ cfg cfg', lbc.getUpstreamServers env ings = .ok cfg →
        lbc.getUpstreamServers env ings' = .ok cfg' →
        cfg.tls = cfg'.tls ∧ cfg.defaultTLSCred = cfg'.defaultTLSCred ∧
          cfg.subTLSCred = cfg'.subTLSCred ∧ cfg.upstreams.Perm cfg'.upstreams ∧
          ((∀ u ∈ cfg.upstreams, ∀ u' ∈ cfg.upstreams, u.name = u'.name → u = u') → cfg = cfg') := by
  have hcu : (lbc.collectUpstreams env ings).Perm (lbc.collectUpstreams env ings') :=
    collectUpstreams_perm hp
  obtain ⟨herr, hok⟩ := addDefaultUpstream_perm hcu
  refine ⟨fun e => by rw [getUpstreamServers_error, getUpstreamServers_error, herr e],
    fun cfg cfg' h h' => ?_⟩
  obtain ⟨d, ups, hd, ha, hm, ht⟩ := getUpstreamServers_eq_ok h
  obtain ⟨d', ups', hd', ha', hm', ht'⟩ := getUpstreamServers_eq_ok h'
  rw [hd] at hd'
  cases hd'
  have hsort := env.sortSlice.perm (fun p : TLSCred => p.key.path.data)
  have hpems : env.sortSlice.sort (fun p => p.key.path.data) (lbc.collectPems env ings) =
      env.sortSlice.sort (fun p => p.key.path.data) (lbc.collectPems env ings') :=
    eq_of_perm_of_sorted_key (fun c => c.key.path.data)
      (((hsort _).trans (collectPems_perm hp)).trans (hsort _).symm)
      (env.sortSlice.sorted _ _) (env.sortSlice.sorted _ _)
      (fun a ha b hb hk => collectPems_key_path_inj ((hsort _).subset ha) ((hsort _).subset hb)
        (String.ext hk))
  rw [hpems, ht'] at ht
  simp only [Prod.mk.injEq] at ht
  have hus : cfg.upstreams.Perm cfg'.upstreams := by
    rw [forall₂_ok_eq_map (mapM_eq_ok hm), forall₂_ok_eq_map (mapM_eq_ok hm')]
    exact (((env.sortSlice.perm _ ups).trans (hok ups ups' ha ha')).trans
      (env.sortSlice.perm _ ups').symm).map _
  refine ⟨ht.1.symm, ht.2.1.symm, ht.2.2.symm, hus, fun hsame => ?_⟩
  have heq : cfg.upstreams = cfg'.upstreams :=
    eq_of_perm_of_sorted_key (fun u => u.name.data) hus (getUpstreamServers_names_sorted h)
      (getUpstreamServers_names_sorted h')
      (fun a ha b hb hk => hsame a ha b hb (String.ext hk))
  cases cfg
  cases cfg'
  simp_all

theorem findPort_toOption {pod : Pod} {sp : ServicePort} {name : String}
    (h : sp.targetPort = .str name) :
    (findPort pod sp).toOption = (pod.containerPorts.flatten.find? fun cp =>
      cp.name == name && cp.protocol == sp.protocol).map ContainerPort.containerPort := by
  unfold findPort
  rw [h]
  dsimp only
  cases pod.containerPorts.flatten.find? _ <;> rfl

/-- Under a permutation of the Pod cache the target port resolves as before when the Pods
the Service selects agree on its named target port. -/
theorem resolveTargetPort_perm_pods {pods : List Pod} (hpods : lbc.podLister.Perm pods)
    {svc : Service} {sp : ServicePort}
    (hagree : ∀ name, sp.targetPort = .str name → ∀ p₁ ∈ lbc.podsForService svc,
      ∀ p₂ ∈ lbc.podsForService svc, findPort p₁ sp = findPort p₂ sp) :
    ({ lbc with podLister := pods } : LoadBalancerController).resolveTargetPort svc sp =
      lbc.resolveTargetPort svc sp := by
  unfold resolveTargetPort
  cases hname : sp.targetPort with
  | int v => rfl
  | str name =>
    dsimp only
    split_ifs
    · rfl
    · cases atoi name with
      | some _ => rfl
      | none =>
        refine find?_bind_eq_of_perm hpods fun a ha b hb hpa hpb => ?_
        rw [← findPort_toOption hname, ← findPort_toOption hname,
          hagree name hname a (List.mem_filter.mpr ⟨ha, hpa⟩) b (List.mem_filter.mpr ⟨hb, hpb⟩)]

/-- Reordering the Ingresses and the Pod cache changes no failure, no TLS field, and the
Upstream list only up to order, when the Pods each resolved Service selects agree on its
named target ports; the configuration is identical when same-named Upstreams are
equal. -/
theorem getUpstreamServers_perm_invariant {pods : List Pod} (hp : ings.Perm ings')
    (hpods : lbc.podLister.Perm pods)
    (hagree : ∀ svc, lbc.ServiceRead ings svc → ∀ sp ∈ svc.ports, ∀ name,
      sp.targetPort = .str name → ∀ p₁ ∈ lbc.podsForService svc,
        ∀ p₂ ∈ lbc.podsForService svc, findPort p₁ sp = findPort p₂ sp) :
    (∀ e, lbc.getUpstreamServers env ings = .error e ↔
        ({ lbc with podLister := pods } : LoadBalancerController).getUpstreamServers env ings' =
          .error e) ∧
      ∀ cfg cfg', lbc.getUpstreamServers env ings = .ok cfg →
        ({ lbc with podLister := pods } : LoadBalancerController).getUpstreamServers env ings' =
          .ok cfg' →
        cfg.tls = cfg'.tls ∧ cfg.defaultTLSCred = cfg'.defaultTLSCred ∧
          cfg.subTLSCred = cfg'.subTLSCred ∧ cfg.upstreams.Perm cfg'.upstreams ∧
          ((∀ u ∈ cfg.upstreams, ∀ u' ∈ cfg.upstreams, u.name = u'.name → u = u') → cfg = cfg') := by
  have hsame : SameReads ings lbc { lbc with podLister := pods } :=
    ⟨rfl, rfl, rfl, rfl, fun _ _ => rfl,
      fun svc hr sp hsp => resolveTargetPort_perm_pods hpods (hagree svc hr sp hsp), fun _ _ => rfl⟩
  rw [← getUpstreamServers_congr hsame]
  exact getUpstreamServers_perm_ingresses hp

end Perm

end LoadBalancerController

/-- A Pod of `default/web` whose container port `http` is `port`. -/
def webPod (name : String) (port : Int) : Pod where
  meta := { sampleMeta name with labels := [("app", "web")] }
  nodeName := "node"
  containerPorts := [[{ name := "http", containerPort := port, protocol := .tcp }]]

/-- `default/web` with port 80 targeting the named port `http`. -/
def namedPortService : Service where
  meta := sampleMeta "web"
  selector := [("app", "web")]
  ports := [{ name := "http", protocol := .tcp, port := 80, targetPort := .str "http" }]

/-- One endpoint of `default/web` serving both 8080 and 9090. -/
def twoPortEndpoints : Endpoints where
  meta := sampleMeta "web"
  subsets := [{ addresses := ["10.0.0.1"],
                ports := [{ port := 8080, protocol := .tcp }, { port := 9090, protocol := .tcp }] }]

def namedPortController (pods : List Pod) : LoadBalancerController :=
  { sampleController [] with
    svcLister := [namedPortService], epLister := [twoPortEndpoints], podLister := pods }

open LoadBalancerController in
theorem sample_perm_invariant :
    sampleIngresses.Perm sampleIngresses.reverse ∧
      (namedPortController [webPod "p1" 8080, webPod "p2" 8080]).podLister.Perm
        [webPod "p2" 8080, webPod "p1" 8080] ∧
      (∀ svc, (namedPortController [webPod "p1" 8080, webPod "p2" 8080]).ServiceRead
          sampleIngresses svc → ∀ sp ∈ svc.ports, ∀ name, sp.targetPort = .str name →
        ∀ p₁ ∈ (namedPortController [webPod "p1" 8080, webPod "p2" 8080]).podsForService svc,
          ∀ p₂ ∈ (namedPortController [webPod "p1" 8080, webPod "p2" 8080]).podsForService svc,
            findPort p₁ sp = findPort p₂ sp) ∧
      ((∀ e, (namedPortController [webPod "p1" 8080, webPod "p2" 8080]).getUpstreamServers
            sampleEnv sampleIngresses = .error e ↔
          ({ namedPortController [webPod "p1" 8080, webPod "p2" 8080] with
              podLister := [webPod "p2" 8080, webPod "p1" 8080] } : LoadBalancerController).getUpstreamServers
            sampleEnv sampleIngresses.reverse = .error e) ∧
        ∀ cfg cfg', (namedPortController [webPod "p1" 8080, webPod "p2" 8080]).getUpstreamServers
            sampleEnv sampleIngresses = .ok cfg →
          ({ namedPortController [webPod "p1" 8080, webPod "p2" 8080] with
              podLister := [webPod "p2" 8080, webPod "p1" 8080] } : LoadBalancerController).getUpstreamServers
            sampleEnv sampleIngresses.reverse = .ok cfg' →
          cfg.tls = cfg'.tls ∧ cfg.defaultTLSCred = cfg'.defaultTLSCred ∧
            cfg.subTLSCred = cfg'.subTLSCred ∧ cfg.upstreams.Perm cfg'.upstreams ∧
            ((∀ u ∈ cfg.upstreams, ∀ u' ∈ cfg.upstreams, u.name = u'.name → u = u') →
              cfg = cfg')) := by
  have hpods : (namedPortController [webPod "p1" 8080, webPod "p2" 8080]).podLister.Perm
      [webPod "p2" 8080, webPod "p1" 8080] := List.Perm.swap _ _ []
  have hagree : ∀ svc, (namedPortController [webPod "p1" 8080, webPod "p2" 8080]).ServiceRead
      sampleIngresses svc → ∀ sp ∈ svc.ports, ∀ name, sp.targetPort = .str name →
      ∀ p₁ ∈ (namedPortController [webPod "p1" 8080, webPod "p2" 8080]).podsForService svc,
        ∀ p₂ ∈ (namedPortController [webPod "p1" 8080, webPod "p2" 8080]).podsForService svc,
          findPort p₁ sp = findPort p₂ sp := by
    intro svc _ sp _ name _ p₁ h₁ p₂ h₂
    have hports : ∀ p ∈ (namedPortController [webPod "p1" 8080, webPod "p2" 8080]).podsForService svc,
        p.containerPorts = (webPod "p1" 8080).containerPorts := by
      intro p hp
      have hm := (List.mem_filter.mp hp).1
      simp only [namedPortController, List.mem_cons, List.not_mem_nil, or_false] at hm
      rcases hm with rfl | rfl <;> rfl
    simp only [findPort, hports p₁ h₁, hports p₂ h₂]
  exact ⟨(List.reverse_perm _).symm, hpods, hagree,
    getUpstreamServers_perm_invariant (List.reverse_perm _).symm hpods hagree⟩

/-- The pods' listing order picks the backend port, and with a stable sort the Ingresses'
order picks which of two same-named Upstreams comes first. -/
theorem resolver_depends_on_listing_order :
    ((namedPortController [webPod "p1" 8080, webPod "p2" 9090]).getUpstreamServers sampleEnv
        [catchAllIngress "a" []]).toOption ≠
      ((namedPortController [webPod "p2" 9090, webPod "p1" 8080]).getUpstreamServers sampleEnv
        [catchAllIngress "a" []]).toOption ∧
    ((sampleController []).getUpstreamServers sampleEnv sampleIngresses).toOption ≠
      ((sampleController []).getUpstreamServers sampleEnv sampleIngresses.reverse).toOption := by
  decide

end NghttpxIngress
