import NghttpxIngress.Lifecycle

/-!
# The runtime over whole runs

Every handler calls `enqueue(syncKey)`, only the worker takes items, and sync's deferred
`retryOrForget` re-adds only the key it was given, so the queue never holds anything but
`syncKey` and at most one sync is queued (`KeyOnly`, `WorkQueue.Inv`). A notification is
not lost before `ShutDown`: from the `enqueue` on, the key is queued, or marked dirty
while the worker holds it so that its `Done` queues it again, until a `Get` hands it to
the worker; the sync that follows is the first to start after the notification, though a
failed one is not retried.
-/

namespace NghttpxIngress

namespace WorkQueue

variable {q : WorkQueue} {x item : String}

theorem mem_add_queue (h : x ∈ (q.add item).queue) : x ∈ q.queue ∨ x = item := by
  unfold WorkQueue.add at h
  split_ifs at h
  · exact .inl h
  · exact .inl h
  · exact .inl h
  · simpa using h

theorem mem_add_dirty (h : x ∈ (q.add item).dirty) : x ∈ q.dirty ∨ x = item := by
  unfold WorkQueue.add at h
  split_ifs at h
  · exact .inl h
  · exact .inl h
  all_goals simpa [or_comm] using h

theorem dirty_subset_add (h : x ∈ q.dirty) : x ∈ (q.add item).dirty := by
  unfold WorkQueue.add
  split_ifs <;> simp [h]

/-- Before `ShutDown`, `Add` leaves the item dirty. -/
theorem mem_add_dirty_self (h : q.shuttingDown = false) : item ∈ (q.add item).dirty := by
  unfold WorkQueue.add
  split_ifs with hd <;> simp_all

theorem get_cases {r : Option String} {q' : WorkQueue} (h : q.get = some (r, q')) :
    (r = none ∧ q' = q) ∨
      ∃ key rest, q.queue = key :: rest ∧ r = some key ∧ q'.queue = rest ∧
        q'.dirty = q.dirty.filter (· != key) ∧ q'.processing = key :: q.processing := by
  unfold WorkQueue.get at h
  split at h
  · split at h
    · cases h
      exact .inl ⟨rfl, rfl⟩
    · cases h
  · rename_i key rest hq
    cases h
    exact .inr ⟨key, rest, hq, rfl, rfl, rfl, rfl⟩

theorem mem_done_queue {k : String} (h : x ∈ (q.done k).queue) : x ∈ q.queue ∨ x = k := by
  unfold WorkQueue.done at h
  split_ifs at h
  · simpa using h
  · exact .inl h

@[simp] theorem done_dirty (k : String) : (q.done k).dirty = q.dirty := by
  unfold WorkQueue.done
  split_ifs <;> rfl

@[simp] theorem shutDown_queue : q.shutDown.queue = q.queue := rfl

@[simp] theorem shutDown_shuttingDown : q.shutDown.shuttingDown = true := rfl

@[simp] theorem add_shuttingDown : (q.add item).shuttingDown = q.shuttingDown := by
  unfold WorkQueue.add
  split_ifs <;> rfl

@[simp] theorem done_shuttingDown (k : String) : (q.done k).shuttingDown = q.shuttingDown := by
  unfold WorkQueue.done
  split_ifs <;> rfl

@[simp] theorem shutDown_dirty : q.shutDown.dirty = q.dirty := rfl

end WorkQueue

section Runs

variable (env : Env) (checkAndReload : CheckAndReload)

theorem Reachable.runActions {acts : List Action} :
    ∀ {s s' : Runtime}, Reachable env checkAndReload s →
      runActions env checkAndReload s acts = some s' → Reachable env checkAndReload s' := by
  induction acts with
  | nil =>
    intro s s' hr h
    cases h
    exact hr
  | cons a acts ih =>
    intro s s' hr h
    rw [runActions_cons] at h
    obtain ⟨t, ht, hrun⟩ := Option.bind_eq_some.mp h
    exact ih (.next hr ht) hrun

theorem runActions_append {s : Runtime} (acts₁ acts₂ : List Action) :
    runActions env checkAndReload s (acts₁ ++ acts₂) =
      (runActions env checkAndReload s acts₁).bind (fun t => runActions env checkAndReload t acts₂) :=
  List.foldlM_append _ _ _ _

theorem stepLive_of_step {s s' : Runtime} {a : Action}
    (hs : NghttpxIngress.step env checkAndReload s a = some s') :
    stepLive env checkAndReload s a = some s' := by
  unfold NghttpxIngress.step at hs
  split at hs
  · cases hs
  · exact hs

/-- What a step of the worker does: a `Get` that answers `quit` or hands it an item, the
return of `sync` with its deferred `retryOrForget`, or `Done`. -/
theorem workerStep_cases {s s' : Runtime} {a : Action}
    (hs : workerStep env checkAndReload s a = some s') :
    (a = .workerGet ∧ s.worker = .get ∧ s.queue.get = some (none, s'.queue) ∧ s'.worker = .get) ∨
      (a = .workerGet ∧ s.worker = .get ∧
        ∃ key, s.queue.get = some (some key, s'.queue) ∧ s'.worker = .sync key) ∨
      (∃ key, s.worker = .sync key ∧ (∃ requeue, s'.queue = retryOrForget s.queue key requeue) ∧
        s'.worker.held = some key) ∨
      (∃ key err, s.worker = .done key err ∧ s'.queue = s.queue.done key ∧ s'.worker = .get) := by
  cases a <;> simp only [workerStep] at hs
  case workerGet =>
    split at hs <;> cases hs
    · rename_i q hw hg
      exact .inl ⟨rfl, hw, hg, hw⟩
    · rename_i key q hw hg
      exact .inr (.inl ⟨rfl, hw, key, hg, rfl⟩)
  case workerSync lbc =>
    split at hs <;> cases hs
    rename_i key hw
    exact .inr (.inr (.inl ⟨key, hw, ⟨_, rfl⟩, rfl⟩))
  case workerDone =>
    split at hs <;> cases hs
    rename_i key err hw
    exact .inr (.inr (.inr ⟨key, err, hw, rfl, rfl⟩))
  all_goals cases hs

/-! ## Only `syncKey` -/

/-- Only `syncKey` is ever queued, marked dirty, or held by the worker. -/
structure KeyOnly (s : Runtime) : Prop where
  queue : ∀ x ∈ s.queue.queue, x = syncKey
  dirty : ∀ x ∈ s.queue.dirty, x = syncKey
  held : ∀ x, s.worker.held = some x → x = syncKey

theorem keyOnly_init : KeyOnly Runtime.init :=
  ⟨fun _ h => absurd h (List.not_mem_nil _), fun _ h => absurd h (List.not_mem_nil _),
    fun _ h => by cases h⟩

theorem KeyOnly.retryOrForget {s : Runtime} (h : KeyOnly s) {key : String}
    (hk : s.worker.held = some key) (requeue : Bool) {x : String}
    (hx : x ∈ (NghttpxIngress.retryOrForget s.queue key requeue).queue) : x = syncKey := by
  unfold NghttpxIngress.retryOrForget at hx
  split at hx
  · rcases WorkQueue.mem_add_queue hx with hx | rfl
    · exact h.queue x hx
    · exact h.held x hk
  · exact h.queue x hx

theorem KeyOnly.retryOrForget_dirty {s : Runtime} (h : KeyOnly s) {key : String}
    (hk : s.worker.held = some key) (requeue : Bool) {x : String}
    (hx : x ∈ (NghttpxIngress.retryOrForget s.queue key requeue).dirty) : x = syncKey := by
  unfold NghttpxIngress.retryOrForget at hx
  split at hx
  · rcases WorkQueue.mem_add_dirty hx with hx | rfl
    · exact h.dirty x hx
    · exact h.held x hk
  · exact h.dirty x hx

theorem KeyOnly.workerStep {s s' : Runtime} {a : Action} (h : KeyOnly s)
    (hs : workerStep env checkAndReload s a = some s') : KeyOnly s' := by
  rcases workerStep_cases env checkAndReload hs with
    ⟨-, -, hg, hw⟩ | ⟨-, -, key, hg, hw⟩ | ⟨key, hw, ⟨requeue, hq⟩, hw'⟩ | ⟨key, err, hw, hq, hw'⟩
  · rcases WorkQueue.get_cases hg with ⟨-, hq⟩ | ⟨_, _, _, h', -⟩
    · exact ⟨hq ▸ h.queue, hq ▸ h.dirty, fun x hx => by simp [hw, WorkerPc.held] at hx⟩
    · cases h'
  · rcases WorkQueue.get_cases hg with ⟨h', -⟩ | ⟨k, rest, hq, hk, hq', hd', -⟩
    · cases h'
    · rw [Option.some.injEq] at hk
      subst hk
      refine ⟨fun x hx => h.queue x (by rw [hq]; exact List.mem_cons_of_mem _ (hq' ▸ hx)),
        fun x hx => h.dirty x (by rw [hd'] at hx; exact (List.mem_filter.mp hx).1),
        fun x hx => ?_⟩
      simp only [hw, WorkerPc.held, Option.some.injEq] at hx
      exact hx ▸ h.queue key (by rw [hq]; exact List.mem_cons_self _ _)
  · have hk : s.worker.held = some key := by rw [hw]; rfl
    refine ⟨fun x hx => h.retryOrForget hk requeue (hq ▸ hx),
      fun x hx => h.retryOrForget_dirty hk requeue (hq ▸ hx), fun x hx => ?_⟩
    rw [hw'] at hx
    cases hx
    exact h.held _ hk
  · have hk : s.worker.held = some key := by rw [hw]; rfl
    refine ⟨fun x hx => ?_, fun x hx => h.dirty x (by simpa [hq] using hx),
      fun x hx => by simp [hw', WorkerPc.held] at hx⟩
    rcases WorkQueue.mem_done_queue (hq ▸ hx) with hx | rfl
    · exact h.queue x hx
    · exact h.held x hk

theorem KeyOnly.step {s s' : Runtime} {a : Action} (h : KeyOnly s)
    (hs : NghttpxIngress.step env checkAndReload s a = some s') : KeyOnly s' := by
  rcases stepLive_cases env checkAndReload (stepLive_of_step env checkAndReload hs) with ⟨hq, hw⟩ | ⟨hq, hw⟩ | ⟨hq, hw⟩ | hw
  · exact ⟨hq ▸ h.queue, hq ▸ h.dirty, hw ▸ h.held⟩
  · refine ⟨fun x hx => ?_, fun x hx => ?_, hw ▸ h.held⟩
    · rcases WorkQueue.mem_add_queue (hq ▸ hx) with hx | rfl
      · exact h.queue x hx
      · rfl
    · rcases WorkQueue.mem_add_dirty (hq ▸ hx) with hx | rfl
      · exact h.dirty x hx
      · rfl
  · exact ⟨fun x hx => h.queue x (by simpa [hq] using hx),
      fun x hx => h.dirty x (by simpa [hq] using hx), hw ▸ h.held⟩
  · exact h.workerStep env checkAndReload hw

theorem Reachable.keyOnly {s : Runtime} (hr : Reachable env checkAndReload s) : KeyOnly s := by
  induction hr with
  | init => exact keyOnly_init
  | next _ hs ih => exact ih.step env checkAndReload hs

theorem eq_nil_or_singleton_of_nodup {l : List String} {a : String} (hn : l.Nodup)
    (h : ∀ x ∈ l, x = a) : l = [] ∨ l = [a] := by
  match l, hn with
  | [], _ => exact .inl rfl
  | [x], _ => exact .inr (by rw [h x (List.mem_singleton_self x)])
  | x :: y :: _, hn =>
    have hxy : x = y :=
      (h x (List.mem_cons_self _ _)).trans (h y (List.mem_cons_of_mem _ (List.mem_cons_self _ _))).symm
    exact absurd (by rw [hxy]; exact List.mem_cons_self _ _) (List.nodup_cons.mp hn).1

/-- In every reachable state notifications have coalesced: at most one sync is queued, only
`syncKey` is ever marked dirty, and a key is being processed exactly when the worker holds
it between its `Get` and its `Done`, so at most one sync runs at a time. -/
theorem sync_queue_coalesces {s : Runtime} (hr : Reachable env checkAndReload s) :
    (s.queue.queue = [] ∨ s.queue.queue = [syncKey]) ∧ (∀ x ∈ s.queue.dirty, x = syncKey) ∧
      ∀ x, x ∈ s.queue.processing ↔ s.worker.held = some x ∧ x = syncKey := by
  have hi := hr.inv
  have hk := hr.keyOnly
  refine ⟨eq_nil_or_singleton_of_nodup hi.nodup hk.queue, hk.dirty, fun x => ?_⟩
  rw [hi.processing x]
  exact ⟨fun h => ⟨h, hk.held x h⟩, fun h => h.1⟩

/-- A notification arrives while the worker holds the first sync: the key is queued again
and dirty, and also processing. -/
theorem sample_sync_queue_coalesces :
    ∃ s, runActions sampleEnv reloadOk Runtime.init [.runReady, .enqueue, .workerGet, .enqueue] =
        some s ∧ Reachable sampleEnv reloadOk s ∧
      (s.queue.queue = [] ∨ s.queue.queue = [syncKey]) ∧ (∀ x ∈ s.queue.dirty, x = syncKey) ∧
        ∀ x, x ∈ s.queue.processing ↔ s.worker.held = some x ∧ x = syncKey := by
  obtain ⟨s, hrun⟩ : ∃ s, runActions sampleEnv reloadOk Runtime.init
      [.runReady, .enqueue, .workerGet, .enqueue] = some s := ⟨_, rfl⟩
  have hr := Reachable.runActions sampleEnv reloadOk .init hrun
  exact ⟨s, hrun, hr, sync_queue_coalesces sampleEnv reloadOk hr⟩

/-! ## No lost notification -/

theorem dirty_subset_retryOrForget {q : WorkQueue} {key x : String} (requeue : Bool)
    (hx : x ∈ q.dirty) : x ∈ (retryOrForget q key requeue).dirty := by
  unfold retryOrForget
  split
  · exact WorkQueue.dirty_subset_add hx
  · exact hx

/-- A dirty key stays dirty until a `Get` hands it to the worker. -/
theorem step_dirty {s s' : Runtime} {a : Action} {x : String} (hx : x ∈ s.queue.dirty)
    (hs : NghttpxIngress.step env checkAndReload s a = some s') :
    x ∈ s'.queue.dirty ∨ (a = .workerGet ∧ s'.worker = .sync x) := by
  rcases stepLive_cases env checkAndReload (stepLive_of_step env checkAndReload hs) with ⟨hq, -⟩ | ⟨hq, -⟩ | ⟨hq, -⟩ | hw
  · exact .inl (hq ▸ hx)
  · exact .inl (hq ▸ WorkQueue.dirty_subset_add hx)
  · exact .inl (by simpa [hq] using hx)
  rcases workerStep_cases env checkAndReload hw with
    ⟨-, -, hg, -⟩ | ⟨ha, -, key, hg, hw'⟩ | ⟨key, -, ⟨requeue, hq⟩, -⟩ | ⟨key, err, -, hq, -⟩
  · rcases WorkQueue.get_cases hg with ⟨-, hq⟩ | ⟨_, _, _, h', -⟩
    · exact .inl (hq ▸ hx)
    · cases h'
  · rcases WorkQueue.get_cases hg with ⟨h', -⟩ | ⟨k, rest, -, hk, -, hd', -⟩
    · cases h'
    · rw [Option.some.injEq] at hk
      subst hk
      by_cases hxk : x = key
      · exact .inr ⟨ha, hxk ▸ hw'⟩
      · exact .inl (by rw [hd']; simpa [hxk] using hx)
  · exact .inl (hq ▸ dirty_subset_retryOrForget requeue hx)
  · exact .inl (by simpa [hq] using hx)

/-- Over a run, a dirty key stays dirty unless some `Get` of the run hands it to the worker. -/
theorem dirty_until_get {x : String} {acts : List Action} :
    ∀ {t s' : Runtime}, x ∈ t.queue.dirty → runActions env checkAndReload t acts = some s' →
      x ∈ s'.queue.dirty ∨
        ∃ acts₁ acts₂ u u', acts = acts₁ ++ .workerGet :: acts₂ ∧
          runActions env checkAndReload t acts₁ = some u ∧
          NghttpxIngress.step env checkAndReload u .workerGet = some u' ∧ u'.worker = .sync x := by
  induction acts with
  | nil =>
    intro t s' hx h
    cases h
    exact .inl hx
  | cons a acts ih =>
    intro t s' hx h
    rw [runActions_cons] at h
    obtain ⟨u, hu, hrun⟩ := Option.bind_eq_some.mp h
    rcases step_dirty env checkAndReload hx hu with hx' | ⟨rfl, hw⟩
    · rcases ih hx' hrun with h' | ⟨acts₁, acts₂, v, v', hacts, hv, hs, hw'⟩
      · exact .inl h'
      · refine .inr ⟨a :: acts₁, acts₂, v, v', by rw [hacts]; rfl, ?_, hs, hw'⟩
        rw [runActions_cons, hu]
        exact hv
    · exact .inr ⟨[], acts, t, u, rfl, rfl, hu, hw⟩

/-- A notification delivered before `ShutDown` is not lost: in every run after it, `syncKey`
is still queued, or still dirty while the worker holds it (so that its `Done` queues it
again), unless a `Get` of the run has handed `syncKey` to the worker. -/
theorem enqueue_never_lost {s t s' : Runtime} {acts : List Action}
    (hr : Reachable env checkAndReload s) (hsd : s.queue.shuttingDown = false)
    (he : NghttpxIngress.step env checkAndReload s .enqueue = some t)
    (hrun : runActions env checkAndReload t acts = some s') :
    (syncKey ∈ s'.queue.queue ∨ (syncKey ∈ s'.queue.dirty ∧ s'.worker.held = some syncKey)) ∨
      ∃ acts₁ acts₂ u u', acts = acts₁ ++ .workerGet :: acts₂ ∧
        runActions env checkAndReload t acts₁ = some u ∧
        NghttpxIngress.step env checkAndReload u .workerGet = some u' ∧
        u'.worker = .sync syncKey := by
  have hdirty : syncKey ∈ t.queue.dirty := by
    have he' := stepLive_of_step env checkAndReload he
    simp only [stepLive, Option.some.injEq] at he'
    subst he'
    exact WorkQueue.mem_add_dirty_self hsd
  rcases dirty_until_get env checkAndReload hdirty hrun with hd | hget
  · have hi := ((hr.next he).runActions env checkAndReload hrun).inv
    rcases hi.dirty _ hd with hp | hq
    · exact .inl (.inr ⟨hd, (hi.processing _).mp hp⟩)
    · exact .inl (.inl hq)
  · exact .inr hget

/-- Run has received from `ready`; nothing is queued. -/
def readyRuntime : Runtime := { Runtime.init with run := .waitStop }

theorem sample_enqueue_never_lost :
    ∃ t s', NghttpxIngress.step sampleEnv reloadOk readyRuntime .enqueue = some t ∧
      runActions sampleEnv reloadOk t [.workerGet, .enqueue] = some s' ∧
      ((syncKey ∈ s'.queue.queue ∨ (syncKey ∈ s'.queue.dirty ∧ s'.worker.held = some syncKey)) ∨
        ∃ acts₁ acts₂ u u', [Action.workerGet, .enqueue] = acts₁ ++ .workerGet :: acts₂ ∧
          runActions sampleEnv reloadOk t acts₁ = some u ∧
          NghttpxIngress.step sampleEnv reloadOk u .workerGet = some u' ∧
          u'.worker = .sync syncKey) := by
  have hr : Reachable sampleEnv reloadOk readyRuntime := .next .init (a := .runReady) rfl
  obtain ⟨t, he⟩ : ∃ t, NghttpxIngress.step sampleEnv reloadOk readyRuntime .enqueue = some t :=
    ⟨_, rfl⟩
  obtain ⟨s', hrun⟩ : ∃ s', runActions sampleEnv reloadOk t [.workerGet, .enqueue] = some s' := by
    rw [Option.some.inj (he.symm.trans rfl)]
    exact ⟨_, rfl⟩
  exact ⟨t, s', he, hrun, enqueue_never_lost sampleEnv reloadOk hr rfl he hrun⟩

end Runs

end NghttpxIngress
