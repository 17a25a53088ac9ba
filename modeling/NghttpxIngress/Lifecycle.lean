import NghttpxIngress.Controller

/-!
# The work queue, the worker, and the lifecycle of Run

`workqueue.Type` is not in the repository and is modelled as client-go implements it (a
FIFO `queue`, a `dirty` set and a `processing` set; after `ShutDown`, `Add` does nothing
and `Get` on an empty queue answers `shutdown` at once). The goroutines that `Run` starts
are one state machine (`Runtime`), one step per atomic action. `sync` never assigns its
`retry`, so a failed recompute is not queued again (`workerDone_requeued_iff`); `Run`
returns three of its own steps after `stopCh` closes, wherever the worker and the status
loop are (`run_returns_alone`); and worker() has no exit, so after `ShutDown` with nothing
queued it calls `Get` again forever (`workerGet_replicate_of_shutdown`).
-/

namespace NghttpxIngress

/-- The one key the controller queues. -/
def syncKey : String := "ingress"

structure WorkQueue where
  queue : List String
  dirty : List String
  processing : List String
  shuttingDown : Bool
  deriving DecidableEq

namespace WorkQueue

/-- workqueue.New(). -/
def new : WorkQueue := { queue := [], dirty := [], processing := [], shuttingDown := false }

/-- Add. -/
def add (q : WorkQueue) (item : String) : WorkQueue :=
  if q.shuttingDown then q
  else if item ∈ q.dirty then q
  else if item ∈ q.processing then { q with dirty := item :: q.dirty }
  else { q with dirty := item :: q.dirty, queue := q.queue ++ [item] }

/-- Get; `none` while it blocks, `some (none, q)` for the `shutdown` answer. -/
def get (q : WorkQueue) : Option (Option String × WorkQueue) :=
  match q.queue with
  | [] => if q.shuttingDown then some (none, q) else none
  | item :: rest =>
    some (some item, { q with queue := rest, processing := item :: q.processing,
                                dirty := q.dirty.filter (· != item) })

/-- Done. -/
def done (q : WorkQueue) (item : String) : WorkQueue :=
  if item ∈ q.dirty then
    { q with processing := q.processing.filter (· != item), queue := q.queue ++ [item] }
  else { q with processing := q.processing.filter (· != item) }

/-- ShutDown. -/
def shutDown (q : WorkQueue) : WorkQueue := { q with shuttingDown := true }

/-- What the queue keeps true while a single worker holds `held`, the item between its
`Get` and its `Done`. -/
structure Inv (q : WorkQueue) (held : Option String) : Prop where
  nodup : q.queue.Nodup
  queued : ∀ x ∈ q.queue, x ∈ q.dirty ∧ x ∉ q.processing
  dirty : ∀ x ∈ q.dirty, x ∈ q.processing ∨ x ∈ q.queue
  processing : ∀ x, x ∈ q.processing ↔ held = some x

theorem inv_new : Inv new none :=
  ⟨List.nodup_nil, fun _ h => absurd h (List.not_mem_nil _), fun _ h => absurd h (List.not_mem_nil _),
    fun _ => by simp [new]⟩

variable {q : WorkQueue} {held : Option String}

theorem Inv.add (h : Inv q held) (item : String) : Inv (q.add item) held := by
  unfold WorkQueue.add
  split
  · exact h
  split
  · exact h
  rename_i hnd
  split
  · rename_i hp
    exact ⟨h.nodup, fun x hx => (h.queued x hx).imp_left (List.mem_cons_of_mem _),
      fun x hx => (List.mem_cons.mp hx).elim (fun e => .inl (e ▸ hp)) (h.dirty x), h.processing⟩
  · rename_i hnp
    have hnq : item ∉ q.queue := fun hq => hnd (h.queued item hq).1
    refine ⟨List.nodup_append.mpr ⟨h.nodup, List.nodup_singleton _, ?_⟩, fun x hx => ?_,
      fun x hx => ?_, h.processing⟩
    · simpa using hnq
    · rcases List.mem_append.mp hx with hx | hx
      · exact (h.queued x hx).imp_left (List.mem_cons_of_mem _)
      · rw [List.mem_singleton.mp hx]
        exact ⟨List.mem_cons_self _ _, hnp⟩
    · rcases List.mem_cons.mp hx with rfl | hx
      · exact .inr (List.mem_append_right _ (List.mem_singleton_self _))
      · exact (h.dirty x hx).imp_right (List.mem_append_left _)

theorem Inv.get (h : Inv q none) {r : Option String} {q' : WorkQueue}
    (hg : q.get = some (r, q')) : Inv q' r := by
  unfold WorkQueue.get at hg
  split at hg
  · split at hg
    · cases hg
      exact h
    · cases hg
  · rename_i item rest hq
    cases hg
    have hp : ∀ x, x ∉ q.processing := fun x hx => by simpa using (h.processing x).mp hx
    have hnd := h.nodup
    rw [hq, List.nodup_cons] at hnd
    refine ⟨hnd.2, fun x hx => ?_, fun x hx => ?_, fun x => ?_⟩
    · have hne : x ≠ item := fun e => hnd.1 (e ▸ hx)
      have hd := (h.queued x (hq ▸ List.mem_cons_of_mem _ hx)).1
      simp [hne, hd, hp x]
    · simp only [List.mem_filter, bne_iff_ne, ne_eq] at hx
      rcases h.dirty x hx.1 with hx' | hx'
      · exact absurd hx' (hp x)
      · rw [hq] at hx'
        exact .inr ((List.mem_cons.mp hx').resolve_left hx.2)
    · simp [hp x, eq_comm]

theorem Inv.done {k : String} (h : Inv q (some k)) : Inv (q.done k) none := by
  have hnq : k ∉ q.queue := fun hk => (h.queued k hk).2 ((h.processing k).mpr rfl)
  have hpk : ∀ x, x ∈ q.processing → x = k := fun x hx => by simpa [eq_comm] using (h.processing x).mp hx
  have hempty : ∀ x, x ∉ q.processing.filter (· != k) := fun x hx => by
    simp only [List.mem_filter, bne_iff_ne, ne_eq] at hx
    exact hx.2 (hpk x hx.1)
  unfold WorkQueue.done
  split
  · rename_i hd
    refine ⟨List.nodup_append.mpr ⟨h.nodup, List.nodup_singleton _, by simpa using hnq⟩,
      fun x hx => ⟨?_, hempty x⟩, fun x hx => .inr ?_, fun x => by simp [hempty x]⟩
    · rcases List.mem_append.mp hx with hx | hx
      · exact (h.queued x hx).1
      · exact List.mem_singleton.mp hx ▸ hd
    · rcases h.dirty x hx with hx' | hx'
      · exact List.mem_append_right _ (List.mem_singleton.mpr (hpk x hx'))
      · exact List.mem_append_left _ hx'
  · rename_i hd
    refine ⟨h.nodup, fun x hx => ⟨(h.queued x hx).1, hempty x⟩, fun x hx => .inr ?_,
      fun x => by simp [hempty x]⟩
    rcases h.dirty x hx with hx' | hx'
    · exact absurd (hpk x hx' ▸ hx) hd
    · exact hx'

theorem Inv.shutDown (h : Inv q held) : Inv q.shutDown held :=
  ⟨h.nodup, h.queued, h.dirty, h.processing⟩

/-- `Done` queues the item again exactly when it was added since its `Get`. -/
theorem done_mem_queue_iff {k : String} (h : Inv q (some k)) :
    k ∈ (q.done k).queue ↔ k ∈ q.dirty := by
  have hnq : k ∉ q.queue := fun hk => (h.queued k hk).2 ((h.processing k).mpr rfl)
  unfold WorkQueue.done
  split
  · exact iff_of_true (List.mem_append_right _ (List.mem_singleton_self k)) ‹_›
  · exact iff_of_false hnq ‹_›

theorem add_of_shuttingDown (h : q.shuttingDown = true) (item : String) : q.add item = q := by
  simp [WorkQueue.add, h]

theorem shutDown_of_shuttingDown (h : q.shuttingDown = true) : q.shutDown = q := by
  cases q
  simp_all [WorkQueue.shutDown]

end WorkQueue

/-- retryOrForget. -/
def retryOrForget (q : WorkQueue) (key : String) (requeue : Bool) : WorkQueue :=
  if requeue then q.add key else q

/-- The sink's CheckAndReload, after ReadConfig merged the ConfigMap into the
configuration: whether it reloaded, or why it failed. -/
abbrev CheckAndReload := IngressConfig → Option ConfigMap → Except String Bool

/-- sync: the error it returns (`none` for nil) and the `retry` flag its deferred
retryOrForget reads. Listing Ingresses and reading the ConfigMap do not fail on an
informer store. -/
def sync (env : Env) (checkAndReload : CheckAndReload) (lbc : LoadBalancerController) :
    Option Failure × Bool :=
  let retry := false
  let result : Except Failure Unit := do
    let ingConfig ← lbc.getUpstreamServers env lbc.ingLister
    let cm := lbc.getConfigMap lbc.ngxConfigMap
    let _ ← (checkAndReload ingConfig cm).mapError Failure.error
    pure ()
  match result with
  | .ok _ => (none, retry)
  | .error err => (some err, retry)

/-- Where the worker goroutine is in the loop of `worker`. -/
inductive WorkerPc
  | get
  | sync (key : String)
  | done (key : String) (err : Option Failure)
  deriving DecidableEq

/-- The item the worker holds between `Get` and `Done`. -/
def WorkerPc.held : WorkerPc → Option String
  | .sync key => some key
  | .done key _ => some key
  | _ => none

/-- Where syncIngress is: a status tick, the `select` on `stopCh` and the timer, the
final removal pass, or returned. -/
inductive StatusPc
  | update
  | select
  | remove
  | returned
  deriving DecidableEq

/-- Where Run is: waiting for the caches (`<-ready`), waiting for `<-lbc.stopCh`, about to
call `syncQueue.ShutDown()`, about to return, or returned. -/
inductive RunPc
  | waitReady
  | waitStop
  | shutDown
  | returning
  | returned
  deriving DecidableEq

structure Runtime where
  queue : WorkQueue
  worker : WorkerPc
  status : StatusPc
  run : RunPc
  shutdown : Bool
  stopClosed : Bool
  deriving DecidableEq

/-- Run has started the informers and its `waitForControllerToSync` goroutine; the worker
and the status loop exist, at their first statement, once Run has received from `ready`. -/
def Runtime.init : Runtime :=
  { queue := WorkQueue.new, worker := .get, status := .update, run := .waitReady,
    shutdown := false, stopClosed := false }

inductive Action
  | enqueue
  | stop
  | runReady
  | runStopped
  | runShutDown
  | runReturn
  | workerGet
  /-- sync returns, on the caches as they are then. -/
  | workerSync (lbc : LoadBalancerController)
  | workerDone
  | statusUpdate
  | statusTimer
  | statusStop
  | statusRemoved

section Steps

variable (env : Env) (checkAndReload : CheckAndReload)

/-- A step of the worker goroutine. -/
def workerStep (s : Runtime) : Action → Option Runtime
  | .workerGet =>
    match s.worker, s.queue.get with
    | .get, some (none, q) => some { s with queue := q }
    | .get, some (some key, q) => some { s with queue := q, worker := .sync key }
    | _, _ => none
  | .workerSync lbc =>
    match s.worker with
    | .sync key =>
      some { s with queue := retryOrForget s.queue key (sync env checkAndReload lbc).2,
                    worker := .done key (sync env checkAndReload lbc).1 }
    | _ => none
  | .workerDone =>
    match s.worker with
    | .done key _ => some { s with queue := s.queue.done key, worker := .get }
    | _ => none
  | _ => none

/-- A step of syncIngress. -/
def statusStep (s : Runtime) : Action → Option Runtime
  | .statusUpdate => if s.status = .update then some { s with status := .select } else none
  | .statusTimer => if s.status = .select then some { s with status := .update } else none
  | .statusStop =>
    if s.status = .select ∧ s.stopClosed then some { s with status := .remove } else none
  | .statusRemoved => if s.status = .remove then some { s with status := .returned } else none
  | _ => none

/-- One step of a live process; `none` when the action is not enabled. The worker and
the status loop start when Run receives from `ready`. -/
def stepLive (s : Runtime) : Action → Option Runtime
  | .enqueue => some { s with queue := s.queue.add syncKey }
  | .stop => some (if s.shutdown then s else { s with shutdown := true, stopClosed := true })
  | .runReady => if s.run = .waitReady then some { s with run := .waitStop } else none
  | .runStopped => if s.run = .waitStop ∧ s.stopClosed then some { s with run := .shutDown } else none
  | .runShutDown =>
    if s.run = .shutDown then some { s with run := .returning, queue := s.queue.shutDown } else none
  | .runReturn => if s.run = .returning then some { s with run := .returned } else none
  | .statusUpdate => if s.run = .waitReady then none else statusStep s .statusUpdate
  | .statusTimer => if s.run = .waitReady then none else statusStep s .statusTimer
  | .statusStop => if s.run = .waitReady then none else statusStep s .statusStop
  | .statusRemoved => if s.run = .waitReady then none else statusStep s .statusRemoved
  | a => if s.run = .waitReady then none else workerStep env checkAndReload s a

/-- `main` returns right after `Run`, and the process with it. -/
def step (s : Runtime) (a : Action) : Option Runtime :=
  if s.run = .returned then none else stepLive env checkAndReload s a

def runActions (s : Runtime) (acts : List Action) : Option Runtime :=
  acts.foldlM (step env checkAndReload) s

inductive Reachable : Runtime → Prop
  | init : Reachable Runtime.init
  | next {s s' : Runtime} {a : Action} : Reachable s → step env checkAndReload s a = some s' →
      Reachable s'

theorem step_of_returned {s : Runtime} (h : s.run = .returned) (a : Action) :
    step env checkAndReload s a = none := if_pos h

theorem statusStep_frame {s s' : Runtime} {a : Action} (hs : statusStep s a = some s') :
    s'.queue = s.queue ∧ s'.worker = s.worker := by
  cases a <;> simp only [statusStep] at hs <;> (try split at hs) <;> cases hs <;> exact ⟨rfl, rfl⟩

theorem workerStep_inv {s s' : Runtime} {a : Action}
    (hi : WorkQueue.Inv s.queue s.worker.held) (hs : workerStep env checkAndReload s a = some s') :
    WorkQueue.Inv s'.queue s'.worker.held := by
  cases a <;> simp only [workerStep] at hs
  case workerGet =>
    split at hs <;> cases hs
    · rename_i q hw hg
      rw [hw] at hi ⊢
      exact hi.get hg
    · rename_i key q hw hg
      rw [hw] at hi
      exact hi.get hg
  case workerSync lbc =>
    split at hs <;> cases hs
    rename_i key hw
    rw [hw] at hi
    unfold retryOrForget
    split
    · exact hi.add _
    · exact hi
  case workerDone =>
    split at hs <;> cases hs
    rename_i key err hw
    rw [hw] at hi
    exact hi.done
  all_goals cases hs

/-- What a step of a live process does to the queue and the worker: nothing, `Add`,
`ShutDown`, or a step of the worker. -/
theorem stepLive_cases {s s' : Runtime} {a : Action} (hs : stepLive env checkAndReload s a = some s') :
    (s'.queue = s.queue ∧ s'.worker = s.worker) ∨
      (s'.queue = s.queue.add syncKey ∧ s'.worker = s.worker) ∨
      (s'.queue = s.queue.shutDown ∧ s'.worker = s.worker) ∨
      workerStep env checkAndReload s a = some s' := by
  cases a <;> simp only [stepLive] at hs
  case enqueue =>
    cases hs
    exact .inr (.inl ⟨rfl, rfl⟩)
  case stop =>
    cases hs
    split <;> exact .inl ⟨rfl, rfl⟩
  case runShutDown =>
    split at hs <;> cases hs
    exact .inr (.inr (.inl ⟨rfl, rfl⟩))
  case runReady | runStopped | runReturn =>
    split at hs <;> cases hs
    exact .inl ⟨rfl, rfl⟩
  case statusUpdate | statusTimer | statusStop | statusRemoved =>
    split at hs
    · cases hs
    · exact .inl (statusStep_frame hs)
  all_goals
    split at hs
    · cases hs
    · exact .inr (.inr (.inr hs))

/-- The queue invariant, with the worker's item as the one held. -/
theorem stepLive_inv {s s' : Runtime} {a : Action}
    (hi : WorkQueue.Inv s.queue s.worker.held) (hs : stepLive env checkAndReload s a = some s') :
    WorkQueue.Inv s'.queue s'.worker.held := by
  rcases stepLive_cases env checkAndReload hs with ⟨hq, hw⟩ | ⟨hq, hw⟩ | ⟨hq, hw⟩ | hw
  · rw [hq, hw]
    exact hi
  · rw [hq, hw]
    exact hi.add _
  · rw [hq, hw]
    exact hi.shutDown
  · exact workerStep_inv env checkAndReload hi hw

theorem Reachable.inv {s : Runtime} (hr : Reachable env checkAndReload s) :
    WorkQueue.Inv s.queue s.worker.held := by
  induction hr with
  | init => exact WorkQueue.inv_new
  | next _ hs ih =>
    unfold step at hs
    split at hs
    · cases hs
    · exact stepLive_inv env checkAndReload ih hs

/-- sync's return, its deferred retryOrForget included, leaves the queue as it is: its
`retry` flag is false on every path. -/
theorem step_workerSync_queue {s s' : Runtime} {lbc : LoadBalancerController}
    (hs : step env checkAndReload s (.workerSync lbc) = some s') : s'.queue = s.queue := by
  simp only [step, stepLive, workerStep] at hs
  split_ifs at hs
  split at hs
  · cases hs
    have hretry : (sync env checkAndReload lbc).2 = false := by
      unfold sync
      dsimp only
      split <;> rfl
    simp only [retryOrForget, hretry, Bool.false_eq_true, if_false]
  · cases hs

theorem step_workerDone {s s' : Runtime} {key : String} {err : Option Failure}
    (hw : s.worker = .done key err) (hs : step env checkAndReload s .workerDone = some s') :
    s' = { s with queue := s.queue.done key, worker := .get } := by
  simp only [step, stepLive, workerStep, hw] at hs
  split_ifs at hs
  cases hs
  rfl

/-- After `Done` the key is queued again exactly when a handler added it during the
attempt; what sync returned plays no part. -/
theorem workerDone_requeued_iff {s s' : Runtime} {key : String} {err : Option Failure}
    (hr : Reachable env checkAndReload s) (hw : s.worker = .done key err)
    (hs : step env checkAndReload s .workerDone = some s') :
    key ∈ s'.queue.queue ↔ key ∈ s.queue.dirty := by
  have hi := hr.inv
  rw [hw] at hi
  rw [step_workerDone env checkAndReload hw hs]
  exact WorkQueue.done_mem_queue_iff hi

/-- Once `stopCh` is closed, Run returns in three steps of its own, wherever the worker
and the status loop are. -/
theorem run_returns_alone {s : Runtime} (hstop : s.stopClosed = true) (hrun : s.run = .waitStop) :
    runActions env checkAndReload s [.runStopped, .runShutDown, .runReturn] =
      some { s with run := .returned, queue := s.queue.shutDown } := by
  simp [runActions, step, stepLive, hstop, hrun]

theorem runActions_cons {s : Runtime} {a : Action} {acts : List Action} :
    runActions env checkAndReload s (a :: acts) =
      (step env checkAndReload s a).bind (fun t => runActions env checkAndReload t acts) := rfl

section ShutDown

/-! ## The worker after `ShutDown`

worker() is `for { func() { ... }() }`: on `quit` the `return` leaves the closure, and the
`for`, which has no other exit, calls the closure again. -/

variable {s : Runtime} (hsd : s.queue.shuttingDown = true) (hq : s.queue.queue = [])
  (hw : s.worker = .get)
include hsd hq hw

/-- `Get` answers `quit` at once, and the worker is back at `Get` with nothing changed. -/
theorem workerStep_get_of_shutdown : workerStep env checkAndReload s .workerGet = some s := by
  cases s
  simp_all [workerStep, WorkQueue.get]

/-- `Get` is the worker's only step. -/
theorem workerStep_of_shutdown {a : Action} {t : Runtime}
    (h : workerStep env checkAndReload s a = some t) : t = s := by
  cases a
  case workerGet =>
    rw [workerStep_get_of_shutdown env checkAndReload hsd hq hw] at h
    exact (Option.some.inj h).symm
  all_goals simp [workerStep, hw] at h

/-- No goroutine's step changes the queue or moves the worker: `Add` after `ShutDown` does
nothing, and nothing is held that `Done` could queue again. -/
theorem step_of_shutdown {a : Action} {s' : Runtime} (hs : step env checkAndReload s a = some s') :
    s'.queue = s.queue ∧ s'.worker = .get := by
  unfold step at hs
  split at hs
  · cases hs
  rcases stepLive_cases env checkAndReload hs with ⟨hq', hw'⟩ | ⟨hq', hw'⟩ | ⟨hq', hw'⟩ | hw'
  · exact ⟨hq', hw'.trans hw⟩
  · exact ⟨hq'.trans (WorkQueue.add_of_shuttingDown hsd _), hw'.trans hw⟩
  · exact ⟨hq'.trans (WorkQueue.shutDown_of_shuttingDown hsd), hw'.trans hw⟩
  · rw [workerStep_of_shutdown env checkAndReload hsd hq hw hw']
    exact ⟨rfl, hw⟩

omit hsd hq hw in
theorem runActions_of_shutdown {acts : List Action} :
    ∀ {s s' : Runtime}, s.queue.shuttingDown = true → s.queue.queue = [] → s.worker = .get →
      runActions env checkAndReload s acts = some s' → s'.queue = s.queue ∧ s'.worker = .get := by
  induction acts with
  | nil =>
    intro s s' _ _ hw hr
    cases hr
    exact ⟨rfl, hw⟩
  | cons a acts ih =>
    intro s s' hsd hq hw hr
    rw [runActions_cons] at hr
    obtain ⟨t, ht, hrun⟩ := Option.bind_eq_some.mp hr
    obtain ⟨htq, htw⟩ := step_of_shutdown env checkAndReload hsd hq hw ht
    obtain ⟨hq', hw'⟩ := ih (htq ▸ hsd) (htq ▸ hq) htw hrun
    exact ⟨hq'.trans htq, hw'⟩

/-- The worker takes `Get` any number of times, each time back where it started. -/
theorem workerGet_replicate_of_shutdown (n : Nat) :
    (List.replicate n Action.workerGet).foldlM (workerStep env checkAndReload) s = some s := by
  induction n with
  | zero => rfl
  | succ n ih =>
    simp only [List.replicate_succ, List.foldlM_cons,
      workerStep_get_of_shutdown env checkAndReload hsd hq hw]
    exact ih

omit hsd hq hw in
/-- Once the queue is shut down with nothing queued and the worker is at its `Get`, in every
run of the goroutines from there the worker is still at `Get` with the queue as it was; its
only step is that `Get`, which answers `quit` and leads back to the same state; and it can
take it any number of times. worker() never returns. -/
theorem worker_loops_after_shutdown {s s' : Runtime} {acts : List Action}
    (hsd : s.queue.shuttingDown = true) (hq : s.queue.queue = []) (hw : s.worker = .get)
    (hr : runActions env checkAndReload s acts = some s') :
    s'.worker = .get ∧ s'.queue = s.queue ∧
      (∀ a t, workerStep env checkAndReload s' a = some t → t = s') ∧
      ∀ n, (List.replicate n Action.workerGet).foldlM (workerStep env checkAndReload) s' = some s' := by
  obtain ⟨hq', hw'⟩ := runActions_of_shutdown env checkAndReload hsd hq hw hr
  rw [← hq'] at hsd hq
  exact ⟨hw', hq', fun _ _ => workerStep_of_shutdown env checkAndReload hsd hq hw',
    workerGet_replicate_of_shutdown env checkAndReload hsd hq hw'⟩

end ShutDown

end Steps

/-- The sample snapshot with a default TLS Secret that does not exist. -/
def missingSecretController : LoadBalancerController :=
  { sampleController [] with defaultTLSSecret := "default/missing" }

def reloadOk : CheckAndReload := fun _ _ => .ok true

/-- One enqueue; sync fails on the missing Secret; after Done nothing is queued and the
worker blocks in Get. -/
theorem failed_sync_is_dropped :
    (sync sampleEnv reloadOk missingSecretController).1 =
        some (.error "Secret default/missing has been deleted") ∧
      runActions sampleEnv reloadOk Runtime.init
          [.runReady, .enqueue, .workerGet, .workerSync missingSecretController, .workerDone] =
        some { Runtime.init with run := .waitStop } ∧
      step sampleEnv reloadOk { Runtime.init with run := .waitStop } .workerGet = none := by
  decide

/-- Stop during a sync: Run returns, and with it the process, while the worker is in sync
and the status loop has not started its removal pass. -/
theorem run_returns_before_worker_and_status :
    runActions sampleEnv reloadOk Runtime.init
        [.runReady, .enqueue, .workerGet, .stop, .runStopped, .runShutDown, .runReturn] =
      some { queue := { queue := [], dirty := [], processing := [syncKey], shuttingDown := true },
             worker := .sync syncKey, status := .update, run := .returned, shutdown := true,
             stopClosed := true } ∧
      ∀ a, step sampleEnv reloadOk
        { queue := { queue := [], dirty := [], processing := [syncKey], shuttingDown := true },
          worker := .sync syncKey, status := .update, run := .returned, shutdown := true,
          stopClosed := true } a = none :=
  ⟨by decide, step_of_returned sampleEnv reloadOk rfl⟩


/-- The process after Stop: Run has shut the queue down and is about to return; the worker
is at `Get`. -/
def stoppedRuntime : Runtime :=
  { queue := { queue := [], dirty := [], processing := [], shuttingDown := true },
    worker := .get, status := .update, run := .returning, shutdown := true, stopClosed := true }

theorem sample_worker_loops_after_stop :
    runActions sampleEnv reloadOk Runtime.init [.runReady, .stop, .runStopped, .runShutDown] =
        some stoppedRuntime ∧
      runActions sampleEnv reloadOk stoppedRuntime [.enqueue, .workerGet, .statusUpdate] =
        some { stoppedRuntime with status := .select } ∧
      ({ stoppedRuntime with status := .select } : Runtime).worker = .get ∧
      ({ stoppedRuntime with status := .select } : Runtime).queue = stoppedRuntime.queue ∧
      (∀ a t, workerStep sampleEnv reloadOk { stoppedRuntime with status := .select } a = some t →
        t = { stoppedRuntime with status := .select }) ∧
      ∀ n, (List.replicate n Action.workerGet).foldlM (workerStep sampleEnv reloadOk)
        { stoppedRuntime with status := .select } = some { stoppedRuntime with status := .select } := by
  have hr : runActions sampleEnv reloadOk stoppedRuntime [.enqueue, .workerGet, .statusUpdate] =
      some { stoppedRuntime with status := .select } := by decide
  exact ⟨by decide, hr, worker_loops_after_shutdown sampleEnv reloadOk rfl rfl rfl hr⟩

end NghttpxIngress
