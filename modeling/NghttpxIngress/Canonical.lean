import NghttpxIngress.Controller

/-!
# Canonical form of the resolved configuration

What every configuration returned by `getUpstreamServers` satisfies: Upstreams sorted by
name, each with a nonempty, strictly increasing and lossless backend list; a TLS
credential list sorted and deduplicated by key path with the default credential kept
apart; TLS flags that agree with the credentials; and a catch-all Upstream. The results
rest on one inversion lemma for `getUpstreamServers` and one spec lemma for each of
its helpers. The sort is any `SortSlice`.
-/

namespace NghttpxIngress

section Lists

variable {α γ : Type}

/-- The run-deduplication keeps a representative of every key of the input. -/
theorem destutter'_covers [DecidableEq γ] (k : α → γ) :
    ∀ (l : List α) (a y : α), y ∈ a :: l →
      ∃ x ∈ l.destutter' (fun x y => k x ≠ k y) a, k x = k y
  | [], a, y, hy => ⟨a, by simp, by simp_all⟩
  | h :: t, a, y, hy => by
    by_cases hah : k a ≠ k h
    · rw [List.destutter'_cons, if_pos hah]
      rcases List.mem_cons.mp hy with rfl | hy
      · exact ⟨y, List.mem_cons_self _ _, rfl⟩
      · obtain ⟨x, hx, hk⟩ := destutter'_covers k t h y hy
        exact ⟨x, List.mem_cons_of_mem _ hx, hk⟩
    · rw [List.destutter'_cons, if_neg hah]
      rcases List.mem_cons.mp hy with rfl | hy
      · exact destutter'_covers k t y y (List.mem_cons_self _ _)
      · rcases List.mem_cons.mp hy with rfl | hy
        · obtain ⟨x, hx, hk⟩ := destutter'_covers k t a a (List.mem_cons_self _ _)
          exact ⟨x, hx, hk.trans (not_not.mp hah)⟩
        · exact destutter'_covers k t a y (List.mem_cons_of_mem _ hy)

/-- A list sorted by a key whose adjacent keys differ is strictly sorted by it. -/
theorem sorted_lt_of_chain'_ne {β : Type} [LinearOrder β] (k : α → β) :
    ∀ {l : List α}, l.Sorted (fun a b => k a ≤ k b) → l.Chain' (fun a b => k a ≠ k b) →
      l.Sorted (fun a b => k a < k b)
  | [], _, _ => List.sorted_nil
  | [a], _, _ => List.sorted_singleton a
  | a :: b :: l, hs, hc => by
    have hab : k a < k b := lt_of_le_of_ne (List.rel_of_sorted_cons hs b (by simp)) hc.rel_head
    have tail := sorted_lt_of_chain'_ne k hs.of_cons hc.tail
    refine List.sorted_cons.mpr ⟨fun c hc' => ?_, tail⟩
    rcases List.mem_cons.mp hc' with rfl | hc'
    · exact hab
    · exact lt_of_lt_of_le hab (le_of_lt (List.rel_of_sorted_cons tail c hc'))

theorem mapM_eq_ok {ε β : Type} {f : α → Except ε β} :
    ∀ {l : List α} {us : List β}, l.mapM f = .ok us → List.Forall₂ (fun a b => f a = .ok b) l us
  | [], us, h => by
    cases h
    exact .nil
  | a :: l, us, h => by
    rw [List.mapM_cons] at h
    cases hf : f a with
    | error e => rw [hf] at h; cases h
    | ok b =>
      cases hl : l.mapM f with
      | error e => rw [hf, hl] at h; cases h
      | ok bs =>
        simp only [hf, hl, bind, Except.bind, pure, Except.pure, Except.ok.injEq] at h
        exact h ▸ .cons hf (mapM_eq_ok hl)

theorem mapM_ok_of_forall {ε β : Type} {f : α → Except ε β} :
    ∀ {l : List α}, (∀ a ∈ l, ∃ b, f a = .ok b) → ∃ us, l.mapM f = .ok us
  | [], _ => ⟨[], rfl⟩
  | a :: l, h => by
    obtain ⟨b, hb⟩ := h a (List.mem_cons_self _ _)
    obtain ⟨bs, hbs⟩ := mapM_ok_of_forall (fun x hx => h x (List.mem_cons_of_mem _ hx))
    exact ⟨b :: bs, by rw [List.mapM_cons, hb, hbs]; rfl⟩

theorem map_eq_of_forall₂ {β δ : Type} {R : α → β → Prop} {f : α → δ} {g : β → δ}
    (H : ∀ a b, R a b → f a = g b) : ∀ {l : List α} {l' : List β}, List.Forall₂ R l l' →
      l.map f = l'.map g
  | _, _, .nil => rfl
  | _, _, .cons h t => by simp only [List.map_cons, H _ _ h, map_eq_of_forall₂ H t]

theorem forall₂_imp_of_mem_right {β : Type} {R S : α → β → Prop} :
    ∀ {l : List α} {l' : List β}, List.Forall₂ R l l' → (∀ a b, b ∈ l' → R a b → S a b) →
      List.Forall₂ S l l'
  | _, _, .nil, _ => .nil
  | _, _, .cons h t, H =>
    .cons (H _ _ (List.mem_cons_self _ _) h)
      (forall₂_imp_of_mem_right t (fun a b hb => H a b (List.mem_cons_of_mem _ hb)))

theorem forall₂_exists_of_mem_left {β : Type} {R : α → β → Prop} :
    ∀ {l : List α} {l' : List β}, List.Forall₂ R l l' → ∀ {a}, a ∈ l → ∃ b ∈ l', R a b
  | _, _, .nil, _, ha => absurd ha (List.not_mem_nil _)
  | _, _, .cons h t, _, ha => by
    rcases List.mem_cons.mp ha with rfl | ha
    · exact ⟨_, List.mem_cons_self _ _, h⟩
    · obtain ⟨b, hb, hr⟩ := forall₂_exists_of_mem_left t ha
      exact ⟨b, List.mem_cons_of_mem _ hb, hr⟩

theorem countP_eq_of_map_eq {p : α → Bool} {l l' : List α} (h : l.map p = l'.map p) :
    l.countP p = l'.countP p := by
  simpa [List.countP_map] using congrArg (List.countP id) h

theorem SortSlice.sort_eq_nil (s : SortSlice) {β : Type} [LinearOrder β] (key : α → β)
    (l : List α) : s.sort key l = [] ↔ l = [] := by
  rw [← List.length_eq_zero, (s.perm key l).length_eq, List.length_eq_zero]

theorem filterMap_map_sublist {β δ : Type} {f : α → Option β} {g : β → δ} {h : α → Option δ}
    (hfh : ∀ a b, f a = some b → h a = some (g b)) :
    ∀ l : List α, ((l.filterMap f).map g).Sublist (l.filterMap h)
  | [] => .slnil
  | a :: l => by
    have ih := filterMap_map_sublist hfh l
    cases hf : f a with
    | none =>
      rw [List.filterMap_cons_none hf]
      cases hh : h a with
      | none => rwa [List.filterMap_cons_none hh]
      | some c => rw [List.filterMap_cons_some hh]; exact ih.cons c
    | some b =>
      rw [List.filterMap_cons_some hf, List.filterMap_cons_some (hfh a b hf), List.map_cons]
      exact ih.cons₂ (g b)

theorem flatMap_map_sublist {β δ : Type} {f : α → List β} {g : β → δ} {h : α → List δ}
    (hfh : ∀ a, ((f a).map g).Sublist (h a)) :
    ∀ l : List α, ((l.flatMap f).map g).Sublist (l.flatMap h)
  | [] => .slnil
  | a :: l => by
    rw [List.flatMap_cons, List.flatMap_cons, List.map_append]
    exact (hfh a).append (flatMap_map_sublist hfh l)

theorem filterMap_flatMap_sublist {β δ : Type} {f : α → Option β} {g : β → List δ}
    {p : α → Bool} {h : α → List δ} (hfh : ∀ a b, f a = some b → p a = true ∧ (g b).Sublist (h a)) :
    ∀ l : List α, ((l.filterMap f).flatMap g).Sublist ((l.filter p).flatMap h)
  | [] => .slnil
  | a :: l => by
    have ih := filterMap_flatMap_sublist hfh l
    cases hf : f a with
    | none =>
      rw [List.filterMap_cons_none hf]
      cases hp : p a with
      | false => rwa [List.filter_cons_of_neg (by simp [hp])]
      | true =>
        rw [List.filter_cons_of_pos hp, List.flatMap_cons]
        exact ih.trans (List.sublist_append_right _ _)
    | some b =>
      obtain ⟨hp, hg⟩ := hfh a b hf
      rw [List.filterMap_cons_some hf, List.filter_cons_of_pos hp, List.flatMap_cons,
        List.flatMap_cons]
      exact hg.append ih

end Lists

/-! ## Backends -/

/-- Backends with the same address and port are the same backend. -/
def Uniform (bs : List UpstreamServer) : Prop :=
  ∀ b ∈ bs, ∀ b' ∈ bs, addrPort b = addrPort b' → b = b'

theorem backendKey_eq_iff {a b : UpstreamServer} : backendKey a = backendKey b ↔ addrPort a = addrPort b := by
  simp only [backendKey, addrPort, toLex_inj, Prod.mk.injEq, String.ext_iff]

theorem uniform_singleton (b : UpstreamServer) : Uniform [b] := by
  intro x hx y hy _
  rw [List.mem_singleton.mp hx, List.mem_singleton.mp hy]

/-- The backend list of the deduplication loop: nonempty, strictly increasing, made of
input backends, with a representative of every input address and port. -/
theorem uniqBackends_spec {env : Env} {u u' : Upstream} (h : uniqBackends env u = .ok u') :
    u' = { u with backends := u'.backends } ∧ u'.backends ≠ [] ∧
      u'.backends.Sorted (fun a b => backendKey a < backendKey b) ∧
      (∀ b ∈ u'.backends, b ∈ u.backends) ∧
      ∀ b ∈ u.backends, ∃ b' ∈ u'.backends, addrPort b' = addrPort b := by
  unfold uniqBackends at h
  have hperm := env.sortSlice.perm backendKey u.backends
  have hsorted := env.sortSlice.sorted backendKey u.backends
  split at h
  · cases h
  · rename_i b bs hs
    cases h
    rw [hs] at hperm hsorted
    have hsub := List.destutter'_sublist bs (fun l s => addrPort l ≠ addrPort s) b
    refine ⟨rfl, List.destutter'_ne_nil _ _, ?_, fun x hx => hperm.subset (hsub.subset hx), ?_⟩
    · refine sorted_lt_of_chain'_ne backendKey (hsorted.sublist hsub) ?_
      exact (List.destutter'_is_chain' bs _ b).imp (fun x y hxy => mt backendKey_eq_iff.mp hxy)
    · intro y hy
      exact destutter'_covers addrPort bs b y (hperm.symm.subset hy)

/-- How the deduplication loop turns a collected Upstream `u₀` into the emitted `u`. -/
structure DedupOf (u₀ u : Upstream) : Prop where
  route : u = { u₀ with backends := u.backends }
  nonempty : u.backends ≠ []
  strictlySorted : u.backends.Sorted (fun a b => backendKey a < backendKey b)
  samePairs : ∀ p, (∃ b ∈ u.backends, addrPort b = p) ↔ (∃ b ∈ u₀.backends, addrPort b = p)
  droppedEqual : ∀ b ∈ u₀.backends, ∀ b' ∈ u.backends, addrPort b = addrPort b' → b = b'

theorem uniqBackends_dedupOf {env : Env} {u₀ u : Upstream} (h : uniqBackends env u₀ = .ok u)
    (huni : Uniform u₀.backends) : DedupOf u₀ u := by
  obtain ⟨hroute, hne, hsorted, hsub, hcover⟩ := uniqBackends_spec h
  refine ⟨hroute, hne, hsorted, fun p => ⟨?_, ?_⟩, ?_⟩
  · rintro ⟨b, hb, rfl⟩
    exact ⟨b, hsub b hb, rfl⟩
  · rintro ⟨b, hb, rfl⟩
    obtain ⟨b', hb', hk⟩ := hcover b hb
    exact ⟨b', hb', hk⟩
  · intro b hb b' hb' hk
    exact huni b hb b' (hsub b' hb') hk

theorem uniqBackends_ok {env : Env} {u : Upstream} (h : u.backends ≠ []) :
    ∃ u', uniqBackends env u = .ok u' := by
  unfold uniqBackends
  have hne : env.sortSlice.sort backendKey u.backends ≠ [] :=
    (SortSlice.sort_eq_nil _ _ _).not.mpr h
  split
  · exact absurd ‹_› hne
  · exact ⟨_, rfl⟩

/-! ## Spec lemmas of the resolver's helpers -/

namespace LoadBalancerController

variable {env : Env} {lbc : LoadBalancerController}

theorem mem_getEndpoints {svc : Service} {sp : ServicePort} {proto : Protocol}
    {config : PortBackendConfig} {b : UpstreamServer}
    (h : b ∈ lbc.getEndpoints svc sp proto config) : ∃ p a, b = upstreamServer config p a := by
  unfold getEndpoints at h
  split at h
  · cases h
  · obtain ⟨ss, -, epPort, -, hb⟩ := by simpa only [List.mem_flatMap] using h
    unfold subsetPortServers at hb
    split_ifs at hb
    · cases hb
    · split at hb
      · cases hb
      · split_ifs at hb
        · cases hb
        · obtain ⟨a, -, rfl⟩ := List.mem_map.mp hb
          exact ⟨_, _, rfl⟩

/-- All backends of one getEndpoints call share its port configuration. -/
theorem getEndpoints_uniform (svc : Service) (sp : ServicePort) (proto : Protocol)
    (config : PortBackendConfig) : Uniform (lbc.getEndpoints svc sp proto config) := by
  intro b hb b' hb' heq
  obtain ⟨p, a, rfl⟩ := mem_getEndpoints hb
  obtain ⟨p', a', rfl⟩ := mem_getEndpoints hb'
  simp only [addrPort, upstreamServer, Prod.mk.injEq] at heq
  simp only [upstreamServer, heq]

theorem pathBackends_uniform (bc : List (String × List (String × PortBackendConfig)))
    (path : HTTPIngressPath) (svc : Service) : Uniform (lbc.pathBackends bc path svc) := by
  unfold pathBackends
  dsimp only
  split
  · intro b hb
    cases hb
  · exact getEndpoints_uniform _ _ _ _

theorem pathUpstream_spec {ing : Ingress} {requireTLS : Bool}
    {bc : List (String × List (String × PortBackendConfig))} {rule : IngressRule}
    {path : HTTPIngressPath} {u : Upstream}
    (h : lbc.pathUpstream ing requireTLS bc rule path = some u) :
    u.host = rule.host ∧ normalizePath path.path = some u.path ∧ u.backends ≠ [] ∧
      Uniform u.backends ∧ u.redirectIfNotTLS = (requireTLS || lbc.defaultTLSSecret != "") := by
  unfold pathUpstream at h
  cases hn : normalizePath path.path with
  | none => simp [hn] at h
  | some np =>
    cases hs : getByKey Service.meta lbc.svcLister (ing.meta.ns ++ "/" ++ path.backend.serviceName) with
    | none => simp [hn, hs] at h
    | some svc =>
      simp only [hn, hs, Option.bind_eq_bind, Option.some_bind] at h
      split_ifs at h with hb
      cases h
      exact ⟨rfl, rfl, hb, pathBackends_uniform _ _ _, rfl⟩

theorem mem_collectUpstreams {ings : List Ingress} {u : Upstream} :
    u ∈ lbc.collectUpstreams env ings ↔
      ∃ ing ∈ ings, ∃ r, lbc.ingressUpstreams env ing = some r ∧ u ∈ r.2 := by
  simp only [collectUpstreams, List.mem_flatMap, List.mem_filterMap]
  constructor
  · rintro ⟨r, ⟨ing, hing, hr⟩, hu⟩
    exact ⟨ing, hing, r, hr, hu⟩
  · rintro ⟨ing, hing, r, hr, hu⟩
    exact ⟨r, ⟨ing, hing, hr⟩, hu⟩

theorem mem_collectPems {ings : List Ingress} {c : TLSCred} :
    c ∈ lbc.collectPems env ings ↔
      ∃ ing ∈ ings, ∃ r, lbc.ingressUpstreams env ing = some r ∧ c ∈ r.1 := by
  simp only [collectPems, List.mem_flatMap, List.mem_filterMap]
  constructor
  · rintro ⟨r, ⟨ing, hing, hr⟩, hc⟩
    exact ⟨ing, hing, r, hr, hc⟩
  · rintro ⟨ing, hing, r, hr, hc⟩
    exact ⟨r, ⟨ing, hing, hr⟩, hc⟩

theorem ingressUpstreams_spec {ing : Ingress} {r : List TLSCred × List Upstream}
    (h : lbc.ingressUpstreams env ing = some r) :
    lbc.validateIngressClass ing = true ∧ lbc.getTLSCredFromIngress env ing = .ok r.1 ∧
      ∀ u ∈ r.2, ∃ rule ∈ ing.rules, ∃ paths, rule.http = some paths ∧ ∃ path ∈ paths,
        lbc.pathUpstream ing (!r.1.isEmpty) (env.getBackendConfig ing.meta.annotations) rule path
          = some u := by
  unfold ingressUpstreams at h
  split_ifs at h with hv
  split at h
  · cases h
  · rename_i pems hp
    cases h
    refine ⟨by simpa using hv, hp, fun u hu => ?_⟩
    obtain ⟨rule, hrule, hu⟩ := List.mem_flatMap.mp hu
    unfold ruleUpstreams at hu
    split at hu
    · cases hu
    · rename_i paths hpaths
      obtain ⟨path, hpath, hu⟩ := List.mem_filterMap.mp hu
      exact ⟨rule, hrule, paths, hpaths, path, hpath, hu⟩

/-- An Upstream collected from the Ingresses has nonempty uniform backends, and it
redirects to TLS only when a default TLS Secret is configured or credentials were
collected. -/
theorem collectUpstreams_spec {ings : List Ingress} {u : Upstream}
    (hu : u ∈ lbc.collectUpstreams env ings) :
    u.backends ≠ [] ∧ Uniform u.backends ∧
      (u.redirectIfNotTLS = true → lbc.defaultTLSSecret ≠ "" ∨ lbc.collectPems env ings ≠ []) := by
  obtain ⟨ing, hing, r, hr, hu⟩ := mem_collectUpstreams.mp hu
  obtain ⟨-, -, hpath⟩ := ingressUpstreams_spec hr
  obtain ⟨rule, -, paths, -, path, -, hp⟩ := hpath u hu
  obtain ⟨-, -, hne, huni, hred⟩ := pathUpstream_spec hp
  refine ⟨hne, huni, fun hr' => ?_⟩
  rw [hred] at hr'
  rcases Bool.or_eq_true_iff.mp hr' with hreq | hdef
  · right
    obtain ⟨c, hc⟩ := List.exists_mem_of_ne_nil r.1 (by simpa using hreq)
    exact List.ne_nil_of_mem (mem_collectPems.mpr ⟨ing, hing, r, hr, hc⟩)
  · left
    simpa using hdef

theorem getDefaultUpstream_spec {d : Upstream} (h : lbc.getDefaultUpstream = .ok d) :
    d.host = "" ∧ d.path = "" ∧ d.backends ≠ [] ∧ Uniform d.backends ∧
      d.redirectIfNotTLS = (lbc.defaultTLSSecret != "") := by
  unfold getDefaultUpstream at h
  split at h
  · cases h
    exact ⟨rfl, rfl, List.cons_ne_nil _ _, uniform_singleton _, rfl⟩
  · split at h
    · cases h
    · cases h
      refine ⟨rfl, rfl, ?_, ?_, rfl⟩
      · split_ifs with he
        · exact List.cons_ne_nil _ _
        · simpa using he
      · split_ifs
        · exact uniform_singleton _
        · exact getEndpoints_uniform _ _ _ _

theorem addDefaultUpstream_spec {us ups : List Upstream} (h : lbc.addDefaultUpstream us = .ok ups) :
    (us.any isDefaultUpstream = true ∧ ups = us) ∨
      (us.any isDefaultUpstream = false ∧ ∃ d, lbc.getDefaultUpstream = .ok d ∧ ups = us ++ [d]) := by
  unfold addDefaultUpstream at h
  split_ifs at h with hany
  · cases h
    exact .inl ⟨hany, rfl⟩
  · cases hd : lbc.getDefaultUpstream with
    | error e => simp [hd, Except.map] at h
    | ok d =>
      simp only [hd, Except.map, Except.ok.injEq] at h
      exact .inr ⟨by simpa using hany, d, rfl, h.symm⟩

/-- The Upstreams getUpstreamServers sorts: those collected from the Ingresses and, when
needed, the synthesized default. -/
theorem addDefaultUpstream_mem {us ups : List Upstream} (h : lbc.addDefaultUpstream us = .ok ups)
    {u : Upstream} (hu : u ∈ ups) : u ∈ us ∨ lbc.getDefaultUpstream = .ok u := by
  rcases addDefaultUpstream_spec h with ⟨-, rfl⟩ | ⟨-, d, hd, rfl⟩
  · exact .inl hu
  · rcases List.mem_append.mp hu with hu | hu
    · exact .inl hu
    · rw [List.mem_singleton.mp hu]
      exact .inr hd

/-- The inversion of getUpstreamServers: what a returned configuration is made of. -/
theorem getUpstreamServers_eq_ok {ings : List Ingress} {cfg : IngressConfig}
    (h : lbc.getUpstreamServers env ings = .ok cfg) :
    ∃ d ups, lbc.defaultTLSCred env = .ok d ∧
      lbc.addDefaultUpstream (lbc.collectUpstreams env ings) = .ok ups ∧
      (env.sortSlice.sort (fun u => u.name.data) ups).mapM (uniqBackends env) = .ok cfg.upstreams ∧
      tlsConfig d (removeDuplicatePems
        (env.sortSlice.sort (fun p => p.key.path.data) (lbc.collectPems env ings))) =
        (cfg.tls, cfg.defaultTLSCred, cfg.subTLSCred) := by
  unfold getUpstreamServers at h
  cases hd : lbc.defaultTLSCred env with
  | error e => simp only [hd, Except.mapError, bind, Except.bind] at h; cases h
  | ok d =>
    cases hu : lbc.addDefaultUpstream (lbc.collectUpstreams env ings) with
    | error e => simp only [hd, hu, Except.mapError, bind, Except.bind] at h; cases h
    | ok ups =>
      simp only [hd, hu, Except.mapError, bind, Except.bind] at h
      cases hm : (env.sortSlice.sort (fun u => u.name.data) ups).mapM (uniqBackends env) with
      | error e => rw [hm] at h; cases h
      | ok us =>
        rw [hm] at h
        cases h
        exact ⟨d, ups, rfl, rfl, hm, rfl⟩

/-- The dedup loop never indexes an empty backend list: once the default Upstream is
added, every Upstream goes through it. -/
theorem normalize_ok {ings : List Ingress} {ups : List Upstream}
    (h : lbc.addDefaultUpstream (lbc.collectUpstreams env ings) = .ok ups) :
    ∃ us, (env.sortSlice.sort (fun u => u.name.data) ups).mapM (uniqBackends env) = .ok us := by
  refine mapM_ok_of_forall (fun u hu => uniqBackends_ok ?_)
  rcases addDefaultUpstream_mem h ((env.sortSlice.perm _ ups).subset hu) with hc | hd
  · exact (collectUpstreams_spec hc).1
  · exact (getDefaultUpstream_spec hd).2.2.1

/-- Every Upstream getUpstreamServers collects has uniform backends. -/
theorem addDefaultUpstream_uniform {ings : List Ingress} {ups : List Upstream}
    (h : lbc.addDefaultUpstream (lbc.collectUpstreams env ings) = .ok ups) {u : Upstream}
    (hu : u ∈ ups) : Uniform u.backends := by
  rcases addDefaultUpstream_mem h hu with hc | hd
  · exact (collectUpstreams_spec hc).2.1
  · exact (getDefaultUpstream_spec hd).2.2.2.1

/-- What getUpstreamServers emits from the Upstreams it collects: a permutation of them
sorted by name, each passed through the deduplication loop. -/
theorem getUpstreamServers_upstreams {ings : List Ingress} {cfg : IngressConfig}
    (h : lbc.getUpstreamServers env ings = .ok cfg) :
    ∃ ups, lbc.addDefaultUpstream (lbc.collectUpstreams env ings) = .ok ups ∧
      ∃ sorted, sorted.Perm ups ∧ sorted.Sorted (fun a b => a.name.data ≤ b.name.data) ∧
        List.Forall₂ (fun u u₀ => uniqBackends env u₀ = .ok u) cfg.upstreams sorted := by
  obtain ⟨-, ups, -, hadd, hm, -⟩ := getUpstreamServers_eq_ok h
  exact ⟨ups, hadd, _, env.sortSlice.perm _ ups, env.sortSlice.sorted _ ups,
    (mapM_eq_ok hm).flip⟩

/-- Each emitted Upstream comes from a collected one, or from the synthesized default,
with only its backends changed. -/
theorem getUpstreamServers_upstream_origin {ings : List Ingress} {cfg : IngressConfig}
    (h : lbc.getUpstreamServers env ings = .ok cfg) {u : Upstream} (hu : u ∈ cfg.upstreams) :
    ∃ u₀, (u₀ ∈ lbc.collectUpstreams env ings ∨ lbc.getDefaultUpstream = .ok u₀) ∧
      u = { u₀ with backends := u.backends } := by
  obtain ⟨ups, hadd, sorted, hperm, -, hf⟩ := getUpstreamServers_upstreams h
  obtain ⟨u₀, hu₀, hrel⟩ := forall₂_exists_of_mem_left hf hu
  exact ⟨u₀, addDefaultUpstream_mem hadd (hperm.subset hu₀), (uniqBackends_spec hrel).1⟩

theorem getUpstreamServers_names_sorted {ings : List Ingress} {cfg : IngressConfig}
    (h : lbc.getUpstreamServers env ings = .ok cfg) :
    cfg.upstreams.Sorted (fun a b => a.name.data ≤ b.name.data) := by
  obtain ⟨-, -, sorted, -, hsorted, hf⟩ := getUpstreamServers_upstreams h
  have hnames : cfg.upstreams.map (fun u => u.name.data) = sorted.map (fun u => u.name.data) :=
    map_eq_of_forall₂ (fun u u₀ hu => by rw [(uniqBackends_spec hu).1]) hf
  have : (sorted.map (fun u => u.name.data)).Sorted (fun a b : List Char => a ≤ b) :=
    List.pairwise_map.mpr hsorted
  exact List.pairwise_map.mp (hnames ▸ this)

/-- Upstreams sorted by name; each with a nonempty, strictly increasing backend list that
keeps every (Address, Port) pair it collected and drops only exact copies. -/
theorem getUpstreamServers_backends_canonical {ings : List Ingress} {cfg : IngressConfig}
    (h : lbc.getUpstreamServers env ings = .ok cfg) :
    cfg.upstreams.Sorted (fun a b => a.name.data ≤ b.name.data) ∧
      ∃ ups, lbc.addDefaultUpstream (lbc.collectUpstreams env ings) = .ok ups ∧
        ∃ sorted, sorted.Perm ups ∧ List.Forall₂ (fun u u₀ => DedupOf u₀ u) cfg.upstreams sorted := by
  obtain ⟨ups, hadd, sorted, hperm, -, hf⟩ := getUpstreamServers_upstreams h
  exact ⟨getUpstreamServers_names_sorted h, ups, hadd, sorted, hperm,
    forall₂_imp_of_mem_right hf (fun u u₀ hu₀ hu =>
      uniqBackends_dedupOf hu (addDefaultUpstream_uniform hadd (hperm.subset hu₀)))⟩

theorem sample_backends_canonical :
    ∃ cfg, (sampleController []).getUpstreamServers sampleEnv sampleIngresses = .ok cfg ∧
      cfg.upstreams.Sorted (fun a b => a.name.data ≤ b.name.data) ∧
      ∃ ups, (sampleController []).addDefaultUpstream
          ((sampleController []).collectUpstreams sampleEnv sampleIngresses) = .ok ups ∧
        ∃ sorted, sorted.Perm ups ∧ List.Forall₂ (fun u u₀ => DedupOf u₀ u) cfg.upstreams sorted :=
  ⟨_, rfl, getUpstreamServers_backends_canonical rfl⟩

theorem tlsConfig_tls_eq (d : Option TLSCred) (R : List TLSCred) :
    (tlsConfig d R).1 = (tlsConfig d R).2.1.isSome := by
  unfold tlsConfig
  split
  · rfl
  · split <;> rfl

theorem tlsConfig_tls_of_ne_nil {d : Option TLSCred} {R : List TLSCred} (h : d.isSome ∨ R ≠ []) :
    (tlsConfig d R).1 = true := by
  unfold tlsConfig
  split
  · rfl
  · split
    · simp_all
    · rfl

theorem removeDuplicatePems_ne_nil {pems : List TLSCred} (h : pems ≠ []) (sortSlice : SortSlice) :
    removeDuplicatePems (sortSlice.sort (fun p => p.key.path.data) pems) ≠ [] := by
  rw [removeDuplicatePems, Ne, List.destutter_eq_nil, SortSlice.sort_eq_nil]
  exact h

/-- The credential list after sorting and removeDuplicatePems is strictly increasing in
key path. -/
theorem removeDuplicatePems_sorted (sortSlice : SortSlice) (pems : List TLSCred) :
    (removeDuplicatePems (sortSlice.sort (fun p => p.key.path.data) pems)).Sorted
      (fun a b => a.key.path.data < b.key.path.data) := by
  refine sorted_lt_of_chain'_ne (fun c : TLSCred => c.key.path.data)
    ((sortSlice.sorted _ pems).sublist (List.destutter_sublist _ _)) ?_
  exact (List.destutter_is_chain' _ _).imp (fun a b hab hdata => hab (String.ext hdata))

/-- ... and it keeps every key path of the collected credentials. -/
theorem removeDuplicatePems_paths (sortSlice : SortSlice) (pems : List TLSCred) (p : String) :
    p ∈ (removeDuplicatePems (sortSlice.sort (fun p => p.key.path.data) pems)).map
      (fun c => c.key.path) ↔ p ∈ pems.map (fun c => c.key.path) := by
  have hperm := sortSlice.perm (fun p => p.key.path.data) pems
  simp only [List.mem_map]
  constructor
  · rintro ⟨c, hc, rfl⟩
    exact ⟨c, hperm.subset ((List.destutter_sublist _ _).subset hc), rfl⟩
  · rintro ⟨c, hc, rfl⟩
    have hcs := hperm.symm.subset hc
    cases hs : sortSlice.sort (fun p => p.key.path.data) pems with
    | nil => rw [hs] at hcs; cases hcs
    | cons a l =>
      rw [hs] at hcs
      rw [removeDuplicatePems, List.destutter_cons']
      exact destutter'_covers (fun c => c.key.path) l a c hcs

theorem tlsConfig_sub_sorted {d : Option TLSCred} {R : List TLSCred}
    (hR : R.Sorted (fun a b => a.key.path.data < b.key.path.data)) :
    (tlsConfig d R).2.2.Sorted (fun a b => a.key.path.data < b.key.path.data) := by
  cases d with
  | some d0 => exact hR.sublist (List.eraseP_sublist _)
  | none =>
    cases R with
    | nil => exact List.sorted_nil
    | cons p ps => exact hR.of_cons

/-- The head removal of the default credential leaves no credential with its key path. -/
theorem tlsConfig_sub_ne_default {d : Option TLSCred} {R : List TLSCred}
    (hR : R.Sorted (fun a b => a.key.path.data < b.key.path.data)) {dc : TLSCred}
    (hdc : (tlsConfig d R).2.1 = some dc) : ∀ c ∈ (tlsConfig d R).2.2, c.key.path ≠ dc.key.path := by
  cases d with
  | some d0 =>
    cases hdc
    show ∀ c ∈ R.eraseP (fun p => p.key.path == dc.key.path), c.key.path ≠ dc.key.path
    intro c hc hpath
    obtain ⟨a, l₁, l₂, hl₁, ha, rfl, he⟩ :=
      List.exists_of_eraseP (p := fun q : TLSCred => q.key.path == dc.key.path)
        ((List.eraseP_sublist R).subset hc) (by simpa using hpath)
    rw [he] at hc
    rcases List.mem_append.mp hc with hc₁ | hc₂
    · exact hl₁ c hc₁ (by simpa using hpath)
    · have hlt := List.rel_of_sorted_cons (List.pairwise_append.mp hR).2.1 c hc₂
      have : a.key.path = c.key.path := (beq_iff_eq.mp ha).trans hpath.symm
      exact lt_irrefl _ (this ▸ hlt)
  | none =>
    cases R with
    | nil => cases hdc
    | cons p ps =>
      cases hdc
      intro c hc hpath
      exact lt_irrefl _ (hpath ▸ List.rel_of_sorted_cons hR c hc)

theorem tlsConfig_paths (d : Option TLSCred) (R : List TLSCred) (p : String) :
    p ∈ ((tlsConfig d R).2.1.toList ++ (tlsConfig d R).2.2).map (fun c => c.key.path) ↔
      p ∈ (d.toList ++ R).map (fun c => c.key.path) := by
  cases d with
  | some d0 =>
    simp only [tlsConfig, Option.toList_some, List.singleton_append, List.map_cons,
      List.mem_cons, List.mem_map]
    constructor
    · rintro (h | ⟨c, hc, rfl⟩)
      · exact .inl h
      · exact .inr ⟨c, (List.eraseP_sublist R).subset hc, rfl⟩
    · rintro (h | ⟨c, hc, rfl⟩)
      · exact .inl h
      · by_cases hq : c.key.path = d0.key.path
        · exact .inl hq
        · exact .inr ⟨c, (List.mem_eraseP_of_neg (by simpa using hq)).mpr hc, rfl⟩
  | none => cases R <;> simp [tlsConfig]

theorem defaultTLSCred_isSome {d : Option TLSCred} (h : lbc.defaultTLSCred env = .ok d)
    (hs : lbc.defaultTLSSecret ≠ "") : d.isSome := by
  unfold defaultTLSCred at h
  rw [if_neg hs] at h
  cases hc : lbc.getTLSCredFromSecret env lbc.defaultTLSSecret with
  | error e => rw [hc] at h; cases h
  | ok c => rw [hc] at h; cases h; rfl

/-- TLS is on exactly when there is a default credential, and an Upstream redirects
plain HTTP only in a configuration with TLS on. -/
theorem getUpstreamServers_tls_flags_agree {ings : List Ingress} {cfg : IngressConfig}
    (h : lbc.getUpstreamServers env ings = .ok cfg) :
    cfg.tls = cfg.defaultTLSCred.isSome ∧
      ∀ u ∈ cfg.upstreams, u.redirectIfNotTLS = true → cfg.tls = true := by
  obtain ⟨d, ups, hd, -, -, ht⟩ := getUpstreamServers_eq_ok h
  simp only [Prod.ext_iff] at ht
  refine ⟨by rw [← ht.1, ← ht.2.1, tlsConfig_tls_eq], fun u hu hred => ?_⟩
  rw [← ht.1]
  apply tlsConfig_tls_of_ne_nil
  obtain ⟨u₀, hu₀, hrel⟩ := getUpstreamServers_upstream_origin h hu
  rw [hrel] at hred
  have hsecret : lbc.defaultTLSSecret ≠ "" ∨ lbc.collectPems env ings ≠ [] := by
    rcases hu₀ with hc | hdef
    · exact (collectUpstreams_spec hc).2.2 hred
    · rw [(getDefaultUpstream_spec hdef).2.2.2.2] at hred
      exact .inl (by simpa using hred)
  rcases hsecret with hs | hp
  · exact .inl (defaultTLSCred_isSome hd hs)
  · exact .inr (removeDuplicatePems_ne_nil hp env.sortSlice)

theorem sample_tls_flags_agree :
    ∃ cfg, (sampleController []).getUpstreamServers sampleEnv sampleIngresses = .ok cfg ∧
      cfg.tls = cfg.defaultTLSCred.isSome ∧
      ∀ u ∈ cfg.upstreams, u.redirectIfNotTLS = true → cfg.tls = true :=
  ⟨_, rfl, @getUpstreamServers_tls_flags_agree sampleEnv (sampleController []) sampleIngresses _ rfl⟩

theorem ingressUpstreams_pems {ing : Ingress} {c : TLSCred} :
    (∃ r, lbc.ingressUpstreams env ing = some r ∧ c ∈ r.1) ↔
      lbc.validateIngressClass ing = true ∧
        ∃ creds, lbc.getTLSCredFromIngress env ing = .ok creds ∧ c ∈ creds := by
  unfold ingressUpstreams
  by_cases hv : lbc.validateIngressClass ing = true
  · cases hc : lbc.getTLSCredFromIngress env ing <;> simp [hv, hc]
  · simp [hv]

/-- SubTLSCred is strictly increasing in key path and avoids the default credential's
key path; the default and sub credentials carry exactly the key paths of the default
TLS Secret and of every in-scope Ingress whose TLS section resolved. -/
theorem getUpstreamServers_tls_creds_canonical {ings : List Ingress} {cfg : IngressConfig}
    (h : lbc.getUpstreamServers env ings = .ok cfg) :
    cfg.subTLSCred.Sorted (fun a b => a.key.path.data < b.key.path.data) ∧
      (∀ d, cfg.defaultTLSCred = some d → ∀ c ∈ cfg.subTLSCred, c.key.path ≠ d.key.path) ∧
      ∀ p, p ∈ (cfg.defaultTLSCred.toList ++ cfg.subTLSCred).map (fun c => c.key.path) ↔
        (lbc.defaultTLSSecret ≠ "" ∧ ∃ d, lbc.getTLSCredFromSecret env lbc.defaultTLSSecret = .ok d ∧
          d.key.path = p) ∨
        ∃ ing ∈ ings, lbc.validateIngressClass ing = true ∧
          ∃ creds, lbc.getTLSCredFromIngress env ing = .ok creds ∧ ∃ c ∈ creds, c.key.path = p := by
  obtain ⟨d, -, hd, -, -, ht⟩ := getUpstreamServers_eq_ok h
  simp only [Prod.ext_iff] at ht
  have hR := removeDuplicatePems_sorted env.sortSlice (lbc.collectPems env ings)
  refine ⟨ht.2.2 ▸ tlsConfig_sub_sorted hR,
    fun dc hdc => ht.2.2 ▸ tlsConfig_sub_ne_default hR (ht.2.1 ▸ hdc), fun p => ?_⟩
  rw [← ht.2.1, ← ht.2.2, tlsConfig_paths, List.map_append, List.mem_append,
    removeDuplicatePems_paths]
  refine or_congr ?_ ?_
  · unfold defaultTLSCred at hd
    split_ifs at hd with hs
    · cases hd
      simp [hs]
    · cases hc : lbc.getTLSCredFromSecret env lbc.defaultTLSSecret with
      | error e => rw [hc] at hd; cases hd
      | ok c =>
        rw [hc] at hd
        cases hd
        simp [hs, hc, eq_comm]
  · simp only [List.mem_map, mem_collectPems]
    constructor
    · rintro ⟨c, ⟨ing, hing, r, hr, hc⟩, rfl⟩
      obtain ⟨hv, creds, hcreds, hc'⟩ := ingressUpstreams_pems.mp ⟨r, hr, hc⟩
      exact ⟨ing, hing, hv, creds, hcreds, c, hc', rfl⟩
    · rintro ⟨ing, hing, hv, creds, hcreds, c, hc, rfl⟩
      obtain ⟨r, hr, hc'⟩ := ingressUpstreams_pems.mpr ⟨hv, creds, hcreds, hc⟩
      exact ⟨c, ⟨ing, hing, r, hr, hc'⟩, rfl⟩

theorem sample_tls_creds_canonical :
    ∃ cfg, (sampleController []).getUpstreamServers sampleEnv sampleIngresses = .ok cfg ∧
      cfg.subTLSCred.Sorted (fun a b => a.key.path.data < b.key.path.data) ∧
      (∀ d, cfg.defaultTLSCred = some d → ∀ c ∈ cfg.subTLSCred, c.key.path ≠ d.key.path) ∧
      ∀ p, p ∈ (cfg.defaultTLSCred.toList ++ cfg.subTLSCred).map (fun c => c.key.path) ↔
        ((sampleController []).defaultTLSSecret ≠ "" ∧ ∃ d, (sampleController []).getTLSCredFromSecret
          sampleEnv (sampleController []).defaultTLSSecret = .ok d ∧ d.key.path = p) ∨
        ∃ ing ∈ sampleIngresses, (sampleController []).validateIngressClass ing = true ∧
          ∃ creds, (sampleController []).getTLSCredFromIngress sampleEnv ing = .ok creds ∧
            ∃ c ∈ creds, c.key.path = p :=
  ⟨_, rfl, getUpstreamServers_tls_creds_canonical rfl⟩

variable (lbc) in
/-- The Host and normalized Path of every path of every in-scope Ingress, in order: the
routes the Ingresses declare. -/
def declaredRoutes (ings : List Ingress) : List (String × String) :=
  (ings.filter lbc.validateIngressClass).flatMap fun ing => ing.rules.flatMap fun rule =>
    match rule.http with
    | none => []
    | some paths => paths.filterMap fun path => (normalizePath path.path).map (rule.host, ·)

theorem ingressUpstreams_routes {ing : Ingress} {r : List TLSCred × List Upstream}
    (h : lbc.ingressUpstreams env ing = some r) :
    lbc.validateIngressClass ing = true ∧ (r.2.map fun u => (u.host, u.path)).Sublist
      (ing.rules.flatMap fun rule => match rule.http with
        | none => []
        | some paths => paths.filterMap fun path => (normalizePath path.path).map (rule.host, ·)) := by
  unfold ingressUpstreams at h
  split_ifs at h with hv
  split at h
  · cases h
  · cases h
    refine ⟨by simpa using hv, flatMap_map_sublist (fun rule => ?_) _⟩
    unfold ruleUpstreams
    cases rule.http with
    | none => exact .slnil
    | some paths =>
      refine filterMap_map_sublist (fun path u hu => ?_) paths
      obtain ⟨hhost, hnorm, -⟩ := pathUpstream_spec hu
      rw [hnorm, hhost]
      rfl

/-- The routes of the collected Upstreams, in order, are among the declared routes. -/
theorem collectUpstreams_routes (ings : List Ingress) :
    ((lbc.collectUpstreams env ings).map fun u => (u.host, u.path)).Sublist
      (lbc.declaredRoutes ings) := by
  rw [collectUpstreams, List.map_flatMap]
  exact filterMap_flatMap_sublist (fun _ _ h => ingressUpstreams_routes h) ings

/-- How often the collected Upstreams carry a route is at most how often the in-scope
paths declare it. -/
theorem collectUpstreams_route_count (ings : List Ingress) (host path : String) :
    (lbc.collectUpstreams env ings).countP (fun u => u.host == host && u.path == path) ≤
      (lbc.declaredRoutes ings).count (host, path) := by
  have h : ((lbc.collectUpstreams env ings).map fun u => (u.host, u.path)).count (host, path) ≤
      (lbc.declaredRoutes ings).count (host, path) := (collectUpstreams_routes ings).count_le _
  rwa [List.count_eq_countP, List.countP_map] at h

theorem countP_empty_route_eq_zero {us : List Upstream} (h : us.any isDefaultUpstream = false) :
    us.countP (fun u => u.host == "" && u.path == "") = 0 :=
  List.countP_eq_zero.mpr fun u hu hq => by
    simp only [Bool.and_eq_true, beq_iff_eq] at hq
    simpa [isDefaultUpstream, hq] using List.any_eq_false.mp h u hu

/-- A count over the emitted Upstreams, by a test that does not read the backends, is the
count over the collected ones and the synthesized default. -/
theorem getUpstreamServers_countP {ings : List Ingress} {cfg : IngressConfig}
    (h : lbc.getUpstreamServers env ings = .ok cfg) :
    ∃ ups, lbc.addDefaultUpstream (lbc.collectUpstreams env ings) = .ok ups ∧
      ∀ q : Upstream → Bool, (∀ u : Upstream, ∀ bs, q { u with backends := bs } = q u) →
        cfg.upstreams.countP q = ups.countP q := by
  obtain ⟨ups, hadd, sorted, hperm, -, hf⟩ := getUpstreamServers_upstreams h
  refine ⟨ups, hadd, fun q hq => ?_⟩
  rw [countP_eq_of_map_eq (map_eq_of_forall₂ (fun u u₀ hu => ?_) hf), hperm.countP_eq]
  exact (congrArg q (uniqBackends_spec hu).1).trans (hq _ _)

section AddDefault

variable {ings : List Ingress} {ups : List Upstream}
  (hadd : lbc.addDefaultUpstream (lbc.collectUpstreams env ings) = .ok ups)
include hadd

/-- The catch-alls once the default is added: those collected, or the default alone. -/
theorem addDefaultUpstream_catch_all_count :
    ups.countP isDefaultUpstream = max 1 ((lbc.collectUpstreams env ings).countP isDefaultUpstream) := by
  rcases addDefaultUpstream_spec hadd with ⟨hany, rfl⟩ | ⟨hany, d, hd, rfl⟩
  · have : 0 < (lbc.collectUpstreams env ings).countP isDefaultUpstream :=
      List.countP_pos_iff.mpr (by simpa using hany)
    omega
  · obtain ⟨hhost, hpath, -⟩ := getDefaultUpstream_spec hd
    have hzero : (lbc.collectUpstreams env ings).countP isDefaultUpstream = 0 :=
      List.countP_eq_zero.mpr (by simpa using hany)
    simp [hzero, isDefaultUpstream, hhost, hpath]

/-- A route declared at most once is the route of at most one Upstream once the default is
added: the default is added only when no collected Upstream has its route. -/
theorem addDefaultUpstream_route_count (host path : String)
    (hle : (lbc.declaredRoutes ings).count (host, path) ≤ 1) :
    ups.countP (fun u => u.host == host && u.path == path) ≤ 1 := by
  have hc : (lbc.collectUpstreams env ings).countP (fun u => u.host == host && u.path == path) ≤ 1 :=
    (collectUpstreams_route_count ings host path).trans hle
  rcases addDefaultUpstream_spec hadd with ⟨-, rfl⟩ | ⟨hany, d, hd, rfl⟩
  · exact hc
  · obtain ⟨hhost, hpath, -⟩ := getDefaultUpstream_spec hd
    rw [List.countP_append, List.countP_singleton]
    split_ifs with hq
    · simp only [Bool.and_eq_true, beq_iff_eq, hhost, hpath] at hq
      obtain ⟨rfl, rfl⟩ := hq
      rw [countP_empty_route_eq_zero hany]
    · omega

end AddDefault

/-- The catch-all count: the Ingress-derived catch-alls, or the synthesized default when
there is none; and a route declared by at most one in-scope path is the route of at most
one Upstream. Routes declared by several paths are not deduplicated. -/
theorem getUpstreamServers_catch_all_count {ings : List Ingress} {cfg : IngressConfig}
    (h : lbc.getUpstreamServers env ings = .ok cfg) :
    cfg.upstreams.countP isDefaultUpstream =
        max 1 ((lbc.collectUpstreams env ings).countP isDefaultUpstream) ∧
      ∀ host path, (lbc.declaredRoutes ings).count (host, path) ≤ 1 →
        cfg.upstreams.countP (fun u => u.host == host && u.path == path) ≤ 1 := by
  obtain ⟨ups, hadd, hcount⟩ := getUpstreamServers_countP h
  exact ⟨(hcount isDefaultUpstream fun _ _ => rfl).trans (addDefaultUpstream_catch_all_count hadd),
    fun host path hle => (hcount (fun u => u.host == host && u.path == path) fun _ _ => rfl).trans_le
      (addDefaultUpstream_route_count hadd host path hle)⟩

theorem sample_catch_all_count :
    ∃ cfg, (sampleController []).getUpstreamServers sampleEnv sampleIngresses = .ok cfg ∧
      cfg.upstreams.countP isDefaultUpstream = max 1
          (((sampleController []).collectUpstreams sampleEnv sampleIngresses).countP
            isDefaultUpstream) ∧
        ∀ host path, ((sampleController []).declaredRoutes sampleIngresses).count (host, path) ≤ 1 →
          cfg.upstreams.countP (fun u => u.host == host && u.path == path) ≤ 1 :=
  ⟨_, rfl, getUpstreamServers_catch_all_count rfl⟩

end LoadBalancerController

/-- Two Ingresses of one namespace that both declare the catch-all yield two catch-all
Upstreams. -/
theorem two_catch_all_upstreams :
    ((sampleController []).getUpstreamServers sampleEnv
      [catchAllIngress "a" [], catchAllIngress "b" []]).toOption.map
        (fun cfg => cfg.upstreams.countP isDefaultUpstream) = some 2 := by
  decide

/-- A default backend Service without ports: `svc.Spec.Ports[0]` panics when no Ingress
provides the catch-all, whatever the sort and TLS helpers. -/
theorem getUpstreamServers_panics_on_portless_default (env : Env) :
    ({ sampleController [] with svcLister := [{ webService with ports := [] }] }).getUpstreamServers
      env [] = .error (.panic "index out of range [0] with length 0") := by
  rfl

end NghttpxIngress
