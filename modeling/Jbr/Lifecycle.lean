import Jbr.Http.Conn

/-!
# Starting and stopping the endpoint

`jbr_start` allocates the supervisor `struct _JBR`, runs `_jbr_start_thread` on a
worker thread (or, in blocking mode, on the caller's thread) and hands the
supervisor back through `*pjbr`; `jbr_shutdown (pjbr)` stops it.  A `World` holds
the state these functions share: the supervisors on the heap, the
`FIO_CALL_PRE_START` callbacks, the worker threads, the calls of `fio_stop` and
`free`, and the caller's variable `*pjbr`.

Without blocking, the start barrier orders the worker's listen and its pre-start
callback before the caller reads `jbr->rc`; in blocking mode `fio_start` returns
once the loop has been stopped.  So `jbrStart` and `jbrShutdown` are each one step
of the world, and `Reachable` collects the worlds a program reaches by calling
them.
-/

namespace Jbr.Lifecycle

open Jbr.Http

/-- The `iwrc` that a start leaves in `jbr->rc` or returns. -/
inductive Rc where
  | ok
  /-- `IW_ERROR_ALLOC` -/
  | alloc
  /-- `IW_ERROR_THREADING_ERRNO` -/
  | threading
  /-- `JBR_ERROR_HTTP_LISTEN` -/
  | httpListen
  deriving DecidableEq, Repr

/-- The fields of `struct _JBR` that starting and stopping read. -/
structure Supervisor where
  terminated : Bool
  rc : Rc
  blocking : Bool
  deriving DecidableEq, Repr

inductive Thread where
  | running
  | returned
  | joined
  deriving DecidableEq, Repr

structure World where
  /-- The supervisor at each address; `none` where none is allocated. -/
  heap : Nat → Option Supervisor
  /-- The first address never handed out; `0` is `NULL`. -/
  next : Nat
  /-- The `op` of each registered `FIO_CALL_PRE_START` callback `_jbr_on_pre_start`. -/
  preStart : List Nat
  /-- The worker thread of each supervisor started without blocking. -/
  workers : Nat → Option Thread
  /-- The addresses passed to `free`, in order. -/
  frees : List Nat
  /-- How many times `fio_stop` was called. -/
  stops : Nat
  /-- The caller's variable `*pjbr`; `0` is `NULL`. -/
  handle : Nat

def World.init : World := ⟨fun _ => none, 1, [], fun _ => none, [], 0, 0⟩

structure Outcomes where
  /-- `calloc` -/
  alloc : Bool
  /-- `pthread_barrier_init` -/
  barrier : Bool
  /-- `pthread_create` -/
  thread : Bool
  /-- `http_listen` -/
  listen : Bool
  deriving DecidableEq, Repr

namespace World

/-- `calloc` of a supervisor, at the address `w.next`. -/
@[simp] def calloc (w : World) (s : Supervisor) : World :=
  { w with heap := Function.update w.heap w.next (some s), next := w.next + 1 }

@[simp] def free (w : World) (a : Nat) : World :=
  { w with heap := Function.update w.heap a none, frees := w.frees ++ [a] }

@[simp] def update (w : World) (a : Nat) (f : Supervisor → Supervisor) : World :=
  { w with heap := Function.update w.heap a ((w.heap a).map f) }

/-- `pthread_create` of the worker of `a`. -/
@[simp] def spawn (w : World) (a : Nat) : World :=
  { w with workers := Function.update w.workers a (some .running) }

@[simp] def setThread (w : World) (a : Nat) (t : Thread) : World :=
  { w with workers := Function.update w.workers a ((w.workers a).map fun _ => t) }

/-- `jbr->rc` -/
@[simp] def rcOf (w : World) (a : Nat) : Rc :=
  match w.heap a with
  | some s => s.rc
  | none => .ok

end World

/-! ## The C functions -/

/-- `_jbr_start_thread (jbr)` up to the point where the caller goes on. -/
def jbrStartThread (listen : Bool) (a : Nat) (w : World) : World :=
  let w := if listen then w else w.update a fun s => { s with rc := .httpListen }
  if w.rcOf a ≠ .ok then w.setThread a .returned
  else { w with preStart := w.preStart ++ [a] }

/-- `jbr_shutdown (pjbr)` -/
def jbrShutdown (w : World) : World :=
  if w.handle = 0 then w else
  let a := w.handle
  let w := match w.heap a with
    | some s =>
        if s.terminated then w
        else
          let w := w.update a fun s => { s with terminated := true }
          let w := { w with preStart := w.preStart.erase a, stops := w.stops + 1 }
          if s.blocking then w else w.setThread a .joined
    | none => w
  { w.free a with handle := 0 }

/-- `jbr_start (db, opts, pjbr)` with `opts->http.enabled` -/
def jbrStart (enabled : Bool) (cfg : HttpConfig) (o : Outcomes) (w : World) : Rc × World :=
  let w := { w with handle := 0 }
  if !enabled then (.ok, w) else
  if !o.alloc then (.alloc, w) else
  let a := w.next
  let w := w.calloc ⟨true, .ok, cfg.blocking⟩
  if !cfg.blocking then
    if !o.barrier then (.threading, w.free a) else
    if !o.thread then (.threading, w.free a) else
    let w := jbrStartThread o.listen a (w.spawn a)
    let w := w.update a fun s => { s with terminated := false }
    let rc := w.rcOf a
    if rc ≠ .ok then (rc, jbrShutdown w) else (.ok, { w with handle := a })
  else
    let w := { w with handle := a }
    let w := w.update a fun s => { s with terminated := false }
    let w := jbrStartThread o.listen a w
    let rc := w.rcOf a
    let w := w.update a fun s => { s with terminated := true }
    (rc, jbrShutdown w)

/-- The worlds a program reaches by starting and shutting down. -/
inductive Reachable : World → Prop
  | init : Reachable World.init
  | start {w : World} (enabled : Bool) (cfg : HttpConfig) (o : Outcomes) :
      Reachable w → Reachable (jbrStart enabled cfg o w).2
  | shutdown {w : World} : Reachable w → Reachable (jbrShutdown w)

/-! ## Every reachable world is well formed -/

structure World.Wf (w : World) : Prop where
  next_pos : 0 < w.next
  preStart_lt : ∀ a ∈ w.preStart, a < w.next

theorem jbrStartThread_next (listen : Bool) (a : Nat) (w : World) :
    (jbrStartThread listen a w).next = w.next := by
  unfold jbrStartThread
  dsimp only
  split_ifs <;> rfl

theorem jbrStartThread_preStart (listen : Bool) (a : Nat) (w : World) :
    (jbrStartThread listen a w).preStart ⊆ w.preStart ++ [a] := by
  unfold jbrStartThread
  dsimp only
  split_ifs <;> simp

theorem jbrShutdown_next (w : World) : (jbrShutdown w).next = w.next := by
  unfold jbrShutdown
  split_ifs
  · rfl
  · dsimp only
    split
    · split_ifs <;> rfl
    · rfl

theorem jbrShutdown_preStart (w : World) : (jbrShutdown w).preStart ⊆ w.preStart := by
  unfold jbrShutdown
  split_ifs
  · exact List.Subset.refl _
  · dsimp only
    split
    · split_ifs <;> simp [List.erase_subset]
    · exact List.Subset.refl _

theorem jbrShutdown_wf {w : World} (hw : w.Wf) : (jbrShutdown w).Wf :=
  ⟨jbrShutdown_next w ▸ hw.next_pos,
    fun a ha => jbrShutdown_next w ▸ hw.preStart_lt a (jbrShutdown_preStart w ha)⟩

theorem jbrStart_wf {w : World} (hw : w.Wf) (enabled : Bool) (cfg : HttpConfig) (o : Outcomes) :
    (jbrStart enabled cfg o w).2.Wf := by
  -- the start hands out `w.next` and registers at most that address
  have hlt : ∀ w' : World, w'.next = w.next + 1 → w'.preStart ⊆ w.preStart ++ [w.next] →
      w'.Wf := fun w' hn hp =>
    ⟨by omega, fun a ha => by
      rcases List.mem_append.mp (hp ha) with h | h
      · have := hw.preStart_lt a h; omega
      · rw [List.mem_singleton.mp h]; omega⟩
  unfold jbrStart
  dsimp only
  split_ifs
  all_goals first
    | exact ⟨hw.next_pos, hw.preStart_lt⟩
    | exact hlt _ rfl (List.subset_append_left _ _)
    | apply jbrShutdown_wf
      exact hlt _ (jbrStartThread_next ..) (jbrStartThread_preStart ..)
    | exact hlt _ (jbrStartThread_next ..) (jbrStartThread_preStart ..)

theorem Reachable.wf {w : World} (h : Reachable w) : w.Wf := by
  induction h with
  | init => exact ⟨by decide, by simp [World.init]⟩
  | start enabled cfg o _ ih => exact jbrStart_wf ih enabled cfg o
  | shutdown _ ih => exact jbrShutdown_wf ih

/-! ## Shutting down -/

theorem jbrShutdown_handle (w : World) : (jbrShutdown w).handle = 0 := by
  unfold jbrShutdown
  split_ifs with h
  · exact h
  · rfl

theorem jbrShutdown_of_null {w : World} (h : w.handle = 0) : jbrShutdown w = w := by
  simp [jbrShutdown, h]

theorem jbrShutdown_iterate (n : Nat) (w : World) : jbrShutdown^[n + 1] w = jbrShutdown w := by
  induction n with
  | zero => rfl
  | succ n ih => rw [Function.iterate_succ_apply', ih, jbrShutdown_of_null (jbrShutdown_handle w)]

/-! ## Starting -/

/-- `jbr_start` fails exactly when it is enabled and the allocation, the barrier or
the thread of a non-blocking start, or the listen fails. -/
theorem jbrStart_rc_ne_ok (enabled : Bool) (cfg : HttpConfig) (o : Outcomes) (w : World) :
    (jbrStart enabled cfg o w).1 ≠ .ok ↔
      enabled = true ∧ (o.alloc = false ∨ (cfg.blocking = false ∧ (o.barrier = false ∨ o.thread = false)) ∨
        o.listen = false) := by
  rcases o with ⟨_ | _, _ | _, _ | _, _ | _⟩ <;> cases enabled <;> cases hb : cfg.blocking <;>
    simp [jbrStart, jbrStartThread, jbrShutdown, hb]

/-- A non-blocking start that succeeds hands back a live supervisor with
`terminated` clear, its callback registered and its worker in the loop.  Any
number of shutdowns after it free the supervisor once, stop the loop once, join
the worker, unregister the callback and leave `*pjbr` at `NULL`. -/
theorem jbrStart_shutdown_sequence (cfg : HttpConfig) (w : World) (hw : Reachable w)
    (hb : cfg.blocking = false) (n : Nat) :
    let r := jbrStart true cfg ⟨true, true, true, true⟩ w
    r.1 = .ok ∧ r.2.handle = w.next ∧ r.2.heap w.next = some ⟨false, .ok, false⟩ ∧
      w.next ∈ r.2.preStart ∧ r.2.workers w.next = some .running ∧
    let w' := jbrShutdown^[n + 1] r.2
    w'.handle = 0 ∧ w'.heap w.next = none ∧ w'.frees = r.2.frees ++ [w.next] ∧
      w'.stops = r.2.stops + 1 ∧ w.next ∉ w'.preStart ∧ w'.workers w.next = some .joined := by
  have h0 : w.next ≠ 0 := hw.wf.next_pos.ne'
  have hfresh : w.next ∉ w.preStart := fun h => lt_irrefl _ (hw.wf.preStart_lt _ h)
  intro r
  rw [jbrShutdown_iterate]
  simp [r, jbrStart, jbrStartThread, jbrShutdown, hb, h0, List.erase_append_right _ hfresh, hfresh]

theorem jbrStart_shutdown_sequence_init :
    let r := jbrStart true ⟨none, false, false⟩ ⟨true, true, true, true⟩ World.init
    r.1 = .ok ∧ r.2.handle = World.init.next ∧
      r.2.heap World.init.next = some ⟨false, .ok, false⟩ ∧
      World.init.next ∈ r.2.preStart ∧ r.2.workers World.init.next = some .running ∧
    let w' := jbrShutdown^[2 + 1] r.2
    w'.handle = 0 ∧ w'.heap World.init.next = none ∧ w'.frees = r.2.frees ++ [World.init.next] ∧
      w'.stops = r.2.stops + 1 ∧ World.init.next ∉ w'.preStart ∧
      w'.workers World.init.next = some .joined :=
  jbrStart_shutdown_sequence ⟨none, false, false⟩ World.init .init rfl 2

/-- Every failed start but the non-blocking listen leaves nothing behind: no
supervisor or worker it created stays, no callback is added, and `*pjbr` is
`NULL`. -/
theorem jbrStart_failure_releases (cfg : HttpConfig) (o : Outcomes) (w : World) (hw : Reachable w)
    (h : o.alloc = false ∨ (cfg.blocking = false ∧ (o.barrier = false ∨ o.thread = false)) ∨
      (cfg.blocking = true ∧ o.listen = false)) :
    let r := jbrStart true cfg o w
    r.1 ≠ .ok ∧ r.2.preStart = w.preStart ∧ r.2.handle = 0 ∧
      (∀ a, w.heap a = none → r.2.heap a = none) ∧ (∀ a, w.workers a = none → r.2.workers a = none) := by
  have h0 : w.next ≠ 0 := hw.wf.next_pos.ne'
  intro r
  rcases h with ha | ⟨hb, hs⟩ | ⟨hb, hl⟩
  · -- `calloc` fails: nothing is allocated
    simp [r, jbrStart, ha]
  · -- the barrier or the thread fails: the supervisor is freed at once
    cases ha : o.alloc
    · simp [r, jbrStart, ha]
    · cases hbar : o.barrier <;> simp only [hbar, Bool.true_eq_false, false_or] at hs <;>
        simp +contextual [r, jbrStart, hb, ha, hbar, hs, Function.update_apply]
  · -- the listen fails in blocking mode: the start's own shutdown frees the supervisor
    cases ha : o.alloc
    · simp [r, jbrStart, ha]
    · simp +contextual [r, jbrStart, jbrStartThread, jbrShutdown, hb, ha, hl, h0, Function.update_apply]
      exact fun a h ha => ha ▸ h

theorem jbrStart_failure_releases_init :
    let r := jbrStart true ⟨none, false, true⟩ ⟨true, true, true, false⟩ World.init
    r.1 ≠ .ok ∧ r.2.preStart = World.init.preStart ∧ r.2.handle = 0 ∧
      (∀ a, World.init.heap a = none → r.2.heap a = none) ∧
      (∀ a, World.init.workers a = none → r.2.workers a = none) :=
  jbrStart_failure_releases ⟨none, false, true⟩ ⟨true, true, true, false⟩ World.init .init
    (.inr (.inr ⟨rfl, rfl⟩))

/-- Two starts that leave state behind.  Without blocking, a failed listen returns
`JBR_ERROR_HTTP_LISTEN` through `jbr_shutdown (pjbr)` while `*pjbr` is still
`NULL`: the supervisor stays allocated, nothing is freed, and the worker, which
has returned, is never joined.  In blocking mode the start's own `jbr_shutdown`
finds `terminated` set, loses the compare-and-swap and frees the supervisor
without unregistering `_jbr_on_pre_start`, which stays registered for the freed
address. -/
theorem jbrStart_leaves_state (cfg : HttpConfig) (o : Outcomes) (w : World) (hw : Reachable w) :
    (cfg.blocking = false → o = ⟨true, true, true, false⟩ →
      (jbrStart true cfg o w).1 = .httpListen ∧
      (jbrStart true cfg o w).2.heap w.next = some ⟨false, .httpListen, false⟩ ∧
      (jbrStart true cfg o w).2.frees = w.frees ∧
      (jbrStart true cfg o w).2.workers w.next = some .returned ∧
      (jbrStart true cfg o w).2.handle = 0) ∧
    (cfg.blocking = true → o.alloc = true → o.listen = true →
      (jbrStart true cfg o w).1 = .ok ∧
      (jbrStart true cfg o w).2.heap w.next = none ∧
      w.next ∈ (jbrStart true cfg o w).2.preStart) := by
  have h0 : w.next ≠ 0 := hw.wf.next_pos.ne'
  constructor
  · rintro hb rfl
    simp [jbrStart, jbrStartThread, jbrShutdown, hb]
  · intro hb ha hl
    simp [jbrStart, jbrStartThread, jbrShutdown, hb, ha, hl, h0]

theorem jbrStart_leaves_state_init :
    (jbrStart true ⟨none, false, false⟩ ⟨true, true, true, false⟩ World.init).2.heap 1 =
        some ⟨false, .httpListen, false⟩ ∧
      1 ∈ (jbrStart true ⟨none, false, true⟩ ⟨true, true, true, true⟩ World.init).2.preStart ∧
      (jbrStart true ⟨none, false, true⟩ ⟨true, true, true, true⟩ World.init).2.heap 1 = none :=
  ⟨((jbrStart_leaves_state ⟨none, false, false⟩ _ World.init .init).1 rfl rfl).2.1,
    ((jbrStart_leaves_state ⟨none, false, true⟩ ⟨true, true, true, true⟩ World.init .init).2
      rfl rfl rfl).2.2,
    ((jbrStart_leaves_state ⟨none, false, true⟩ ⟨true, true, true, true⟩ World.init .init).2
      rfl rfl rfl).2.1⟩

/-! ## The heap over a whole run -/

def World.view (w : World) (a : Nat) : Option Supervisor × Option Thread × Nat × Nat :=
  (w.heap a, w.workers a, w.frees.count a, w.preStart.count a)

/-- The states of an address that `calloc` handed out. -/
inductive Slot : Option Supervisor × Option Thread × Nat × Nat → Prop
  /-- the supervisor of a running endpoint: its worker in the loop, its callback
  registered once -/
  | running : Slot (some ⟨false, .ok, false⟩, some .running, 0, 1)
  /-- left behind by a start without blocking whose listen failed: its worker has
  returned and is never joined -/
  | failed : Slot (some ⟨false, .httpListen, false⟩, some .returned, 0, 0)
  /-- freed once by `jbr_shutdown` after it ran: its worker joined, its callback
  removed -/
  | stopped : Slot (none, some .joined, 1, 0)
  /-- freed once by `jbr_start` itself, with no worker; a blocking start leaves its
  callback registered -/
  | released (n : Nat) (h : n ≤ 1) : Slot (none, none, 1, n)

/-- The heap of supervisors over a whole run. -/
structure World.Safe (w : World) : Prop where
  next_pos : 0 < w.next
  fresh : ∀ a, a = 0 ∨ w.next ≤ a → w.view a = (none, none, 0, 0)
  slot : ∀ a, 0 < a → a < w.next → Slot (w.view a)
  handle : w.handle = 0 ∨ w.heap w.handle = some ⟨false, .ok, false⟩

theorem World.init_safe : World.init.Safe where
  next_pos := by decide
  fresh _ _ := rfl
  slot _ h h' := absurd h' (by simp [World.init]; omega)
  handle := .inl rfl

theorem World.Safe.step {w w' : World} (hw : w.Safe) {a : Nat} (ha : 0 < a) (ha' : a < w'.next)
    (hle : w.next ≤ w'.next) (hnew : ∀ b, w.next ≤ b → b < w'.next → b = a)
    (hv : ∀ b, b ≠ a → w'.view b = w.view b) (hs : Slot (w'.view a))
    (hh : w'.handle = 0 ∨ w'.heap w'.handle = some ⟨false, .ok, false⟩) : w'.Safe where
  next_pos := by have := hw.next_pos; omega
  fresh b hb := by
    have hba : b ≠ a := by rintro rfl; omega
    rw [hv b hba]
    exact hw.fresh b (by omega)
  slot b hb hb' := by
    by_cases hba : b = a
    · exact hba ▸ hs
    · rw [hv b hba]
      exact hw.slot b hb (by by_contra h; exact hba (hnew b (by omega) hb'))
  handle := hh

theorem World.Safe.clear_handle {w : World} (hw : w.Safe) : World.Safe { w with handle := 0 } :=
  { hw with handle := .inl rfl }

/-! ### What one step can do -/

theorem jbrStart_cases (enabled : Bool) (cfg : HttpConfig) (o : Outcomes) (w : World)
    (h0 : 0 < w.next) (hh : w.heap w.next = none) (ht : w.workers w.next = none) :
    (jbrStart enabled cfg o w).2 = { w with handle := 0 } ∨
    (jbrStart enabled cfg o w).2 = { w with next := w.next + 1, frees := w.frees ++ [w.next],
                                            handle := 0 } ∨
    (jbrStart enabled cfg o w).2 = { w with next := w.next + 1, frees := w.frees ++ [w.next],
                                            preStart := w.preStart ++ [w.next], handle := 0 } ∨
    (jbrStart enabled cfg o w).2 =
      { w with heap := Function.update w.heap w.next (some ⟨false, .httpListen, false⟩),
               next := w.next + 1, workers := Function.update w.workers w.next (some .returned),
               handle := 0 } ∨
    (jbrStart enabled cfg o w).2 =
      { w with heap := Function.update w.heap w.next (some ⟨false, .ok, false⟩),
               next := w.next + 1, workers := Function.update w.workers w.next (some .running),
               preStart := w.preStart ++ [w.next], handle := w.next } := by
  rcases o with ⟨alloc, barrier, thread, listen⟩
  cases enabled
  · exact .inl rfl
  cases alloc
  · exact .inl rfl
  cases hb : cfg.blocking
  · cases barrier <;> cases thread <;> cases listen <;>
      simp [jbrStart, jbrStartThread, jbrShutdown, hb, h0.ne', hh, Function.update_eq_self_iff]
  · cases listen <;>
      simp [jbrStart, jbrStartThread, jbrShutdown, hb, h0.ne', hh, ht, Function.update_eq_self_iff]


theorem jbrShutdown_running {w : World} (h0 : w.handle ≠ 0)
    (hs : w.heap w.handle = some ⟨false, .ok, false⟩) (ht : w.workers w.handle = some .running) :
    jbrShutdown w = { w with heap := Function.update w.heap w.handle none,
                             preStart := w.preStart.erase w.handle, stops := w.stops + 1,
                             workers := Function.update w.workers w.handle (some .joined),
                             frees := w.frees ++ [w.handle], handle := 0 } := by
  simp [jbrShutdown, h0, hs, ht]

/-! ### Every step keeps the heap safe -/

theorem World.Safe.alloc {w w' : World} (hw : w.Safe) (hn : w'.next = w.next + 1)
    (hv : ∀ b, b ≠ w.next → w'.view b = w.view b) (hs : Slot (w'.view w.next))
    (hh : w'.handle = 0 ∨ w'.heap w'.handle = some ⟨false, .ok, false⟩) : w'.Safe :=
  hw.step hw.next_pos (by omega) (by omega) (fun _ _ _ => by omega) hv hs hh

theorem World.Safe.view_next {w : World} (hw : w.Safe) :
    w.heap w.next = none ∧ w.workers w.next = none ∧ w.frees.count w.next = 0 ∧
      w.preStart.count w.next = 0 := by
  simpa [World.view] using hw.fresh w.next (.inr le_rfl)

theorem jbrStart_safe {w : World} (hw : w.Safe) (enabled : Bool) (cfg : HttpConfig) (o : Outcomes) :
    (jbrStart enabled cfg o w).2.Safe := by
  obtain ⟨hh, ht, hf, hp⟩ := hw.view_next
  rcases jbrStart_cases enabled cfg o w hw.next_pos hh ht with h | h | h | h | h <;> rw [h]
  · exact hw.clear_handle
  · refine hw.alloc rfl (fun b hb => by simp [World.view, hb]) ?_ (.inl rfl)
    simpa [World.view, hh, ht, hf, hp] using Slot.released 0 (by omega)
  · refine hw.alloc rfl (fun b hb => by simp [World.view, hb]) ?_ (.inl rfl)
    simpa [World.view, hh, ht, hf, hp] using Slot.released 1 le_rfl
  · refine hw.alloc rfl (fun b hb => by simp [World.view, hb]) ?_ (.inl rfl)
    simpa [World.view, hh, ht, hf, hp] using Slot.failed
  · refine hw.alloc rfl (fun b hb => by simp [World.view, hb]) ?_ (.inr (by simp))
    simpa [World.view, hh, ht, hf, hp] using Slot.running

theorem World.Safe.frees_nodup {w : World} (hw : w.Safe) : w.frees.Nodup := by
  refine List.nodup_iff_count_le_one.mpr fun a => ?_
  by_cases h : a = 0 ∨ w.next ≤ a
  · have := hw.fresh a h
    simp only [World.view, Prod.mk.injEq] at this
    omega
  · have hs := hw.slot a (by omega) (by omega)
    generalize hv : w.view a = v at hs
    cases hs <;> simp only [World.view, Prod.mk.injEq] at hv <;> omega

theorem World.Safe.running {w : World} (hw : w.Safe) {a : Nat}
    (ha : w.heap a = some ⟨false, .ok, false⟩) :
    0 < a ∧ a < w.next ∧ w.view a = (some ⟨false, .ok, false⟩, some .running, 0, 1) := by
  have hfresh : ¬ (a = 0 ∨ w.next ≤ a) := fun h => by simpa [World.view, ha] using hw.fresh a h
  have hpos : 0 < a := by omega
  have hlt : a < w.next := by omega
  have hs := hw.slot a hpos hlt
  generalize hv : w.view a = v at hs
  cases hs <;> simp_all [World.view]

theorem jbrShutdown_safe {w : World} (hw : w.Safe) : (jbrShutdown w).Safe := by
  rcases hw.handle with h0 | hs
  · rwa [jbrShutdown_of_null h0]
  obtain ⟨hpos, hlt, hv⟩ := hw.running hs
  simp only [World.view, Prod.mk.injEq] at hv
  obtain ⟨-, ht, hf, hp⟩ := hv
  rw [jbrShutdown_running hpos.ne' hs ht]
  refine hw.step hpos hlt le_rfl (fun _ h1 h2 => by dsimp only at h2; omega)
    (fun b hb => by simp [World.view, hb, List.count_erase_of_ne]) ?_ (.inl rfl)
  simpa [World.view, hf, hp] using Slot.stopped

/-- In every world a program reaches by starting and shutting down, every address
`calloc` handed out is a running endpoint, a supervisor left behind by a failed
listen, or freed exactly once, by `jbr_shutdown` after it ran or by `jbr_start`
itself; `*pjbr` is `NULL` or names a running endpoint. -/
theorem Reachable.safe {w : World} (h : Reachable w) : w.Safe := by
  induction h with
  | init => exact World.init_safe
  | start enabled cfg o _ ih => exact jbrStart_safe ih enabled cfg o
  | shutdown _ ih => exact jbrShutdown_safe ih

theorem Reachable.safe_listen_failed :
    (jbrStart true ⟨none, false, false⟩ ⟨true, true, true, false⟩ World.init).2.Safe :=
  Reachable.safe (.start true _ _ .init)

end Jbr.Lifecycle
