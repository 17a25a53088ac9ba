import NghttpxIngress.ReferenceIndex
import NghttpxIngress.LifecycleRuns

/-!
# The controller process: informers, handlers and the sync loop

Here `Lifecycle` and `ReferenceIndex` run together. An informer changes its store and
calls its handler on the snapshot after the change, in one step, and the handler enqueues
`syncKey` when it returns true; every other step is a step of `Lifecycle`, whose `sync`
reads the caches as they are. From a reachable process whose queue is not shut down, an
informer step that alters what sync computes, and is not a delete handed a stale
tombstone, leaves `syncKey` pending until a `Get` hands it to the worker. A failed sync is
not retried, and the Service and Node informers, which have no handlers, change their
stores without enqueueing (`unnotified`).
-/

namespace NghttpxIngress

/-- The controller process: Run's goroutines, and the informer caches they read. -/
structure Process where
  rt : Runtime
  lbc : LoadBalancerController

section Process

variable (env : Env) (checkAndReload : CheckAndReload)

/-- An informer changes its store as `n` reports and calls its handler. -/
inductive NotifyStep (n : Notification) : Process → Process → Prop
  /-- The handler returns true and enqueues `syncKey`. -/
  | enqueue {p : Process} {lbc' : LoadBalancerController} {rt' : Runtime} :
      p.lbc.Changes n lbc' → lbc'.onNotification n = true →
      step env checkAndReload p.rt .enqueue = some rt' → NotifyStep n p ⟨rt', lbc'⟩
  /-- The handler returns false. -/
  | ignore {p : Process} {lbc' : LoadBalancerController} :
      p.lbc.Changes n lbc' → lbc'.onNotification n = false → NotifyStep n p ⟨p.rt, lbc'⟩

/-- A step of the process. -/
inductive ProcessStep : Process → Process → Prop
  | notify {p p' : Process} (n : Notification) : NotifyStep env checkAndReload n p p' →
      ProcessStep p p'
  /-- The Service or Node informer changes its store; neither has a handler. -/
  | unnotified {p : Process} {svcs : List Service} {nodes : List Node} :
      ProcessStep p ⟨p.rt, { p.lbc with svcLister := svcs, nodeLister := nodes }⟩
  /-- A step of a goroutine other than a handler's `enqueue`; `sync` reads the caches. -/
  | run {p : Process} {a : Action} {rt' : Runtime} :
      (∀ lbc, a = .workerSync lbc → lbc = p.lbc) → a ≠ .enqueue →
      step env checkAndReload p.rt a = some rt' → ProcessStep p ⟨rt', p.lbc⟩

/-- The process from the start of Run, with any cache contents. -/
inductive ProcessReachable : Process → Prop
  | init (lbc : LoadBalancerController) : ProcessReachable ⟨Runtime.init, lbc⟩
  | next {p p' : Process} : ProcessReachable p → ProcessStep env checkAndReload p p' →
      ProcessReachable p'

theorem ProcessReachable.run {p p' : Process} (hr : ProcessReachable env checkAndReload p)
    (hrun : Relation.ReflTransGen (ProcessStep env checkAndReload) p p') :
    ProcessReachable env checkAndReload p' := by
  induction hrun with
  | refl => exact hr
  | tail _ hs ih => exact ih.next hs

/-- The goroutines of a reachable process are in a reachable state of `Lifecycle`. -/
theorem ProcessReachable.runtime {p : Process} (hr : ProcessReachable env checkAndReload p) :
    Reachable env checkAndReload p.rt := by
  induction hr with
  | init => exact .init
  | next _ hs ih =>
    cases hs with
    | notify _ hn =>
      cases hn with
      | enqueue _ _ h => exact .next ih h
      | ignore => exact ih
    | unnotified => exact ih
    | run _ _ h => exact .next ih h

/-- Only the worker's `Get`, from `get`, hands it a key. -/
theorem worker_get_of_workerGet {s s' : Runtime}
    (hs : step env checkAndReload s .workerGet = some s') : s.worker = .get := by
  have h := stepLive_of_step env checkAndReload hs
  simp only [stepLive, workerStep] at h
  split_ifs at h
  split at h
  · assumption
  · assumption
  · cases h

/-- A dirty key stays dirty over a step of the process, unless a `Get` hands it to the
worker. -/
theorem ProcessStep.dirty {p p' : Process} {x : String}
    (hs : ProcessStep env checkAndReload p p') (hx : x ∈ p.rt.queue.dirty) :
    x ∈ p'.rt.queue.dirty ∨ (p.rt.worker = .get ∧ p'.rt.worker = .sync x) := by
  cases hs with
  | notify _ hn =>
    cases hn with
    | enqueue _ _ h =>
      rcases step_dirty env checkAndReload hx h with hd | ⟨ha, -⟩
      · exact .inl hd
      · cases ha
    | ignore => exact .inl hx
  | unnotified => exact .inl hx
  | run _ _ h =>
    rcases step_dirty env checkAndReload hx h with hd | ⟨rfl, hw⟩
    · exact .inl hd
    · exact .inr ⟨worker_get_of_workerGet env checkAndReload h, hw⟩

/-- Over a run of the process, a dirty key stays dirty unless some `Get` of the run hands
it to the worker. -/
theorem dirty_until_handed {p p' : Process} {x : String}
    (hrun : Relation.ReflTransGen (ProcessStep env checkAndReload) p p')
    (hx : x ∈ p.rt.queue.dirty) :
    x ∈ p'.rt.queue.dirty ∨ ∃ q q', Relation.ReflTransGen (ProcessStep env checkAndReload) p q ∧
      ProcessStep env checkAndReload q q' ∧ q.rt.worker = .get ∧ q'.rt.worker = .sync x ∧
      Relation.ReflTransGen (ProcessStep env checkAndReload) q' p' := by
  induction hrun with
  | refl => exact .inl hx
  | tail hpq hs ih =>
    rcases ih with hd | ⟨q, q', hpq', hs', hw, hw', hq'⟩
    · rcases hs.dirty env checkAndReload hd with hd' | ⟨hw, hw'⟩
      · exact .inl hd'
      · exact .inr ⟨_, _, hpq, hs, hw, hw', .refl⟩
    · exact .inr ⟨q, q', hpq', hs', hw, hw', hq'.tail hs⟩

/-- No reported change that alters what sync computes is missed, unless it is a delete
handed a stale tombstone: after the informer step that makes it, from a reachable process
whose queue is not shut down, `syncKey` is still queued, or still dirty while the worker
holds it (so that its `Done` queues it again), unless a `Get` after the change has handed
`syncKey` to the worker. -/
theorem config_change_not_missed {p p₁ p' : Process} {n : Notification}
    (hr : ProcessReachable env checkAndReload p) (hsd : p.rt.queue.shuttingDown = false)
    (hs : NotifyStep env checkAndReload n p p₁) (hst : p.lbc.DeliversStored n)
    (hne : p.lbc.syncConfig env ≠ p₁.lbc.syncConfig env)
    (hrun : Relation.ReflTransGen (ProcessStep env checkAndReload) p₁ p') :
    (syncKey ∈ p'.rt.queue.queue ∨ (syncKey ∈ p'.rt.queue.dirty ∧ p'.rt.worker.held = some syncKey)) ∨
      ∃ q q', Relation.ReflTransGen (ProcessStep env checkAndReload) p₁ q ∧
        ProcessStep env checkAndReload q q' ∧ q.rt.worker = .get ∧ q'.rt.worker = .sync syncKey ∧
        Relation.ReflTransGen (ProcessStep env checkAndReload) q' p' := by
  have hdirty : syncKey ∈ p₁.rt.queue.dirty := by
    cases hs with
    | enqueue _ _ h =>
      have h' := stepLive_of_step env checkAndReload h
      simp only [stepLive, Option.some.injEq] at h'
      subst h'
      exact WorkQueue.mem_add_dirty_self hsd
    | ignore hc hn =>
      exact absurd (LoadBalancerController.syncConfig_of_not_enqueued hc hst hn).symm hne
  rcases dirty_until_handed env checkAndReload hrun hdirty with hd | hget
  · have hi := (((hr.next (.notify n hs)).run env checkAndReload hrun).runtime env checkAndReload).inv
    rcases hi.dirty _ hd with hp | hq
    · exact .inl (.inr ⟨hd, (hi.processing _).mp hp⟩)
    · exact .inl (.inl hq)
  · exact .inr hget

/-- Ingress `default/a` is added while Run waits on `stopCh`. -/
theorem sample_config_change_not_missed :
    ∃ p₁ : Process, ProcessReachable sampleEnv reloadOk ⟨readyRuntime, sampleController []⟩ ∧
      NotifyStep sampleEnv reloadOk (.ingress (.add (catchAllIngress "a" [])))
        ⟨readyRuntime, sampleController []⟩ p₁ ∧
      (sampleController []).DeliversStored (.ingress (.add (catchAllIngress "a" []))) ∧
      (sampleController []).syncConfig sampleEnv ≠ p₁.lbc.syncConfig sampleEnv ∧
      ((syncKey ∈ p₁.rt.queue.queue ∨
          (syncKey ∈ p₁.rt.queue.dirty ∧ p₁.rt.worker.held = some syncKey)) ∨
        ∃ q q', Relation.ReflTransGen (ProcessStep sampleEnv reloadOk) p₁ q ∧
          ProcessStep sampleEnv reloadOk q q' ∧ q.rt.worker = .get ∧
          q'.rt.worker = .sync syncKey ∧ Relation.ReflTransGen (ProcessStep sampleEnv reloadOk) q' p₁) := by
  have hr : ProcessReachable sampleEnv reloadOk ⟨readyRuntime, sampleController []⟩ :=
    .next (.init _) (.run (a := .runReady) (fun _ h => by cases h) (fun h => by cases h) rfl)
  have hc : (sampleController []).Changes (.ingress (.add (catchAllIngress "a" [])))
      (sampleController [catchAllIngress "a" []]) :=
    ⟨[catchAllIngress "a" []], Applied.add [] [] _ (by simp), rfl⟩
  have hs : NotifyStep sampleEnv reloadOk (.ingress (.add (catchAllIngress "a" [])))
      ⟨readyRuntime, sampleController []⟩
      ⟨{ readyRuntime with queue := readyRuntime.queue.add syncKey },
        sampleController [catchAllIngress "a" []]⟩ :=
    .enqueue hc (by decide) rfl
  have hne : (sampleController []).syncConfig sampleEnv ≠
      (sampleController [catchAllIngress "a" []]).syncConfig sampleEnv :=
    fun h => absurd (congrArg (fun p => p.1.toOption) h) (by decide)
  exact ⟨_, hr, hs, trivial, hne, config_change_not_missed sampleEnv reloadOk hr rfl hs trivial hne .refl⟩

end Process

end NghttpxIngress
