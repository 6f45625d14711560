import OpenVoiceStream.AsrSlots.Model

/-!
# A handler waits for its threads

Every job of a handler but the last one it submitted is done, and the handler leaves its
slot only when the last one is done too.  The event-loop future cannot tell it so, since
it is done as soon as the handler is cancelled; `drain` asks the future of the thread
pool, and only a second cancellation ends its wait before the thread is out.

Where a handler stands fixes where the gate and the coordinator have it.

## Main definitions

* `Pc.place`, `Pc.inSlot` — where the gate and the coordinator have a handler.
* `Handler.Ok` — the jobs of a handler that was cancelled at most once.

## Main results

* `place_of_ne` — a step of the gate moves one task.
* `handlerStep_place`, `handlerStep_ok` — what a move of a handler does.
* `Handler.Ok.threads_le` — a handler has at most one thread inside the backend.
-/

namespace OpenVoiceStream
namespace AsrSlots

open AsrInferGate (Gate Task)

/-! ### Where the gate and the coordinator have a handler -/

/-- Where the gate has a task. -/
inductive Place
  | outside
  | waiting
  | inside
  deriving DecidableEq, Repr

/-- The place of a task. -/
def place : Task → Place
  | .outside => .outside
  | .waiting _ _ => .waiting
  | .inside => .inside

/-- The place of the handler at the gate. -/
def Pc.place : Pc → Place
  | .idle | .ended => .outside
  | .gate => .waiting
  | .lock _ | .body | .awaiting _ _ | .draining _ _ => .inside

/-- The handler is in the context of the coordinator. -/
def Pc.inSlot : Pc → Bool
  | .body | .awaiting _ _ | .draining _ _ => true
  | .idle | .gate | .lock _ | .ended => false

/-- The places that a move with this effect leads between. -/
def SlotOp.Between : SlotOp → Pc → Pc → Prop
  | .keep, pc, pc' => pc'.place = pc.place ∧ pc'.inSlot = pc.inSlot
  | .enter, pc, pc' =>
    pc.place = .inside ∧ pc.inSlot = false ∧ pc'.place = .inside ∧ pc'.inSlot = true
  | .leave, pc, pc' =>
    pc.place = .inside ∧ pc.inSlot = true ∧ pc'.place = .outside ∧ pc'.inSlot = false
  | .leaveGate, pc, pc' =>
    pc.place = .inside ∧ pc.inSlot = false ∧ pc'.place = .outside ∧ pc'.inSlot = false

section GateFrame

variable {ι : Type} [DecidableEq ι] {cfg : AsrInferGate.Cfg} {g g' : Gate ι} {i j : ι}

/-- The task an action of the gate belongs to. -/
def actor : AsrInferGate.Act ι → ι
  | .enter i | .resume i | .cancel i | .exit i => i

theorem place_move_of_ne {t : Task} (hj : j ≠ i) : place ((g.move i t).task j) = place (g.task j) := by
  show place (Function.update g.task i t j) = place (g.task j)
  rw [Function.update_of_ne hj]

theorem place_move_self {t : Task} : place ((g.move i t).task i) = place t := by
  show place (Function.update g.task i t i) = place t
  rw [Function.update_self]

/-- A permit that is handed over does not move the task it goes to. -/
theorem place_wakeNext : place (g.wakeNext.task j) = place (g.task j) := by
  rw [Gate.wakeNext]
  split
  · rename_i ws i _
    split
    · rename_i fut mc hi
      by_cases hj : j = i
      · rw [hj, place_move_self, hi]
        rfl
      · exact place_move_of_ne hj
    · rfl
    · rfl
  · rfl

/-- **The frame of the gate.**  A step moves one task. -/
theorem place_of_ne {a : AsrInferGate.Act ι} (h : AsrInferGate.step cfg g a = some g')
    (hj : j ≠ actor a) : place (g'.task j) = place (g.task j) := by
  cases a with
  | enter i =>
    have hj : j ≠ i := hj
    obtain ⟨-, h⟩ := Option.ite_none_right_eq_some.mp h
    cases h
    rw [Gate.enter]
    split
    · exact place_move_of_ne hj
    split
    · rfl
    · exact place_move_of_ne hj
  | resume i =>
    have hj : j ≠ i := hj
    simp only [AsrInferGate.step] at h
    split at h
    case h_1 => cases h
    case h_2 =>
      cases h
      rw [place_wakeNext, place_move_of_ne hj]
    case h_3 =>
      cases h
      exact place_move_of_ne hj
    case h_4 =>
      cases h
      exact place_move_of_ne hj
    all_goals cases h
  | cancel i =>
    have hj : j ≠ i := hj
    simp only [AsrInferGate.step] at h
    split at h
    · cases h
      exact place_move_of_ne hj
    all_goals cases h
  | exit i =>
    have hj : j ≠ i := hj
    obtain ⟨-, h⟩ := Option.ite_none_right_eq_some.mp h
    cases h
    rw [place_wakeNext, place_move_of_ne hj]

/-- The body of a task ends: the task is outside. -/
theorem place_of_exit (h : AsrInferGate.step cfg g (.exit i) = some g') :
    place (g'.task i) = .outside := by
  obtain ⟨-, h⟩ := Option.ite_none_right_eq_some.mp h
  cases h
  rw [place_wakeNext, place_move_self]
  rfl

end GateFrame

/-! ### One handler -/

/-- The jobs of a handler, all of them done but perhaps the last, which belongs to the
current slot. -/
structure Handler.Last (h : Handler) (first : List Job) (last : Job) : Prop where
  jobs_eq : h.jobs = first ++ [last]
  slotFrom_le : h.slotFrom ≤ first.length
  first_done : ∀ job ∈ first, job.done = true

/-- The jobs of a handler that was cancelled at most once.  A job that is still under
way is the last one; the handler awaits it or is in `drain`. -/
def Handler.Ok (h : Handler) : Prop :=
  match h.pc with
  | .awaiting wrapped mustCancel =>
    ∃ first last, h.Last first last ∧ (wrapped = .done → last.done = true) ∧
      (wrapped = .cancelled ∨ mustCancel = true → h.cancels ≠ 0)
  | .draining mustCancel _ =>
    (∃ first last, h.Last first last) ∧ mustCancel = false ∧ h.cancels ≠ 0
  | .idle | .gate | .lock _ | .body | .ended =>
    h.slotFrom ≤ h.jobs.length ∧ ∀ job ∈ h.jobs, job.done = true

namespace Handler

variable {h h' : Handler} {first : List Job} {last job : Job} {k : ℕ}
  {ends : Bool}

theorem ok_fresh : fresh.Ok := ⟨le_rfl, by simp [fresh]⟩

/-- A job under way is the last one. -/
theorem Last.of_getElem? (hl : h.Last first last) (hk : h.jobs[k]? = some job)
    (hjob : job.done = false) : k = first.length ∧ last = job := by
  rw [hl.jobs_eq] at hk
  rcases lt_or_ge k first.length with hlt | hge
  · rw [List.getElem?_append_left hlt] at hk
    have hdone := hl.first_done job (List.mem_of_getElem? hk)
    rw [hjob] at hdone
    cases hdone
  · rw [List.getElem?_append_right hge, List.getElem?_singleton] at hk
    split at hk
    · rename_i hzero
      exact ⟨by omega, Option.some_inj.mp hk⟩
    · cases hk

/-- The last job moves on. -/
theorem Last.set (hl : h.Last first last) (hjobs : h'.jobs = h.jobs.set first.length job)
    (hfrom : h'.slotFrom = h.slotFrom) : h'.Last first job where
  jobs_eq := by rw [hjobs, hl.jobs_eq, List.set_append_right _ _ le_rfl]; simp
  slotFrom_le := hfrom ▸ hl.slotFrom_le
  first_done := hl.first_done

/-- With the last job done all of them are. -/
theorem Last.all_done (hl : h.Last first last) (hlast : last.done = true) :
    ∀ job ∈ h.jobs, job.done = true := by
  intro job hjob
  rw [hl.jobs_eq, List.mem_append, List.mem_singleton] at hjob
  rcases hjob with hfirst | rfl
  · exact hl.first_done job hfirst
  · exact hlast

/-- The last job is one of those that `drain` looks at. -/
theorem Last.done_of_futures (hl : h.Last first last) (hall : h.futures.all Job.done = true) :
    last.done = true := by
  refine List.all_eq_true.mp hall last ?_
  rw [futures, hl.jobs_eq, List.drop_append_of_le_length hl.slotFrom_le]
  simp

theorem ok_behind (hdone : ∀ job ∈ h.jobs, job.done = true) : (h.behind ends).Ok := by
  cases ends <;> exact ⟨le_rfl, hdone⟩

theorem futures_all_of_done (hdone : ∀ job ∈ h.jobs, job.done = true) :
    h.futures.all Job.done = true :=
  List.all_eq_true.mpr fun job hjob => hdone job (List.mem_of_mem_drop hjob)

/-- With its jobs done a handler leaves its slot at once. -/
theorem ok_exitSlot_of_done (hdone : ∀ job ∈ h.jobs, job.done = true) :
    (h.exitSlot ends).1.Ok := by
  rw [exitSlot, if_pos (futures_all_of_done hdone)]
  exact ok_behind hdone

/-- Otherwise it was cancelled, and it waits. -/
theorem ok_exitSlot_of_last (hl : h.Last first last) (hcancels : h.cancels ≠ 0) :
    (h.exitSlot ends).1.Ok := by
  rw [exitSlot]
  split
  · rename_i hall
    exact ok_behind (hl.all_done (hl.done_of_futures hall))
  · exact ⟨⟨first, last, hl.jobs_eq, hl.slotFrom_le, hl.first_done⟩, rfl, hcancels⟩

theorem Ok.of_awaiting {wrapped : Fut} {mustCancel : Bool} (hok : h.Ok)
    (hpc : h.pc = .awaiting wrapped mustCancel) :
    ∃ first last, h.Last first last ∧ (wrapped = .done → last.done = true) ∧
      (wrapped = .cancelled ∨ mustCancel = true → h.cancels ≠ 0) := by
  rw [Ok, hpc] at hok
  exact hok

theorem Ok.of_draining {mustCancel : Bool} (hok : h.Ok) (hpc : h.pc = .draining mustCancel ends) :
    (∃ first last, h.Last first last) ∧ mustCancel = false ∧ h.cancels ≠ 0 := by
  rw [Ok, hpc] at hok
  exact hok

theorem Ok.of_body (hok : h.Ok) (hpc : h.pc = .body) :
    h.slotFrom ≤ h.jobs.length ∧ ∀ job ∈ h.jobs, job.done = true := by
  rw [Ok, hpc] at hok
  exact hok

/-- A thread takes up or leaves a job, or the job is cancelled. -/
theorem Ok.set {job' : Job} (hok : h.Ok) (hk : h.jobs[k]? = some job) (hjob : job.done = false) :
    { h with jobs := h.jobs.set k job' }.Ok := by
  have hidle : ∀ {P : Prop}, (h.slotFrom ≤ h.jobs.length ∧ ∀ job ∈ h.jobs, job.done = true) → P := by
    rintro P ⟨-, hdone⟩
    have := hdone job (List.mem_of_getElem? hk)
    rw [hjob] at this
    cases this
  rcases hpc : h.pc with _ | _ | mustCancel | _ | ⟨wrapped, mustCancel⟩ | ⟨mustCancel, ends⟩ | _
  case awaiting =>
    obtain ⟨first, last, hl, hdone, hcancels⟩ := hok.of_awaiting hpc
    obtain ⟨rfl, rfl⟩ := hl.of_getElem? hk hjob
    rw [Ok]
    simp only
    refine ⟨first, job', hl.set rfl rfl, fun hwrapped => ?_, hcancels⟩
    have := hdone hwrapped
    rw [hjob] at this
    cases this
  case draining =>
    obtain ⟨⟨first, last, hl⟩, hmust, hcancels⟩ := hok.of_draining hpc
    obtain ⟨rfl, rfl⟩ := hl.of_getElem? hk hjob
    rw [Ok]
    simp only
    exact ⟨⟨first, job', hl.set rfl rfl⟩, hmust, hcancels⟩
  all_goals
    rw [Ok, hpc] at hok
    exact hidle hok

end Handler

section HandlerStep

variable {h h' : Handler} {m : Move} {op : SlotOp}

/-- What a move that leaves the slot makes of the handler. -/
theorem fst_of_exitSlot {ends : Bool} (heq : some (h.exitSlot ends) = some (h', op)) :
    (h.exitSlot ends).1 = h' := by
  rw [Option.some_inj.mp heq]

theorem exitSlot_place (h : Handler) (ends : Bool) (hplace : h.pc.place = .inside)
    (hin : h.pc.inSlot = true) : (h.exitSlot ends).2.Between h.pc (h.exitSlot ends).1.pc := by
  rw [Handler.exitSlot]
  split
  · refine ⟨hplace, hin, ?_⟩
    cases ends <;> exact ⟨rfl, rfl⟩
  · exact ⟨hplace.symm, hin.symm⟩

/-- **The step lemma for the places.** -/
theorem handlerStep_place (hstep : handlerStep h m = some (h', op)) : op.Between h.pc h'.pc := by
  have hexit : ∀ {ends : Bool}, some (h.exitSlot ends) = some (h', op) → h.pc.place = .inside →
      h.pc.inSlot = true → op.Between h.pc h'.pc := by
    intro ends heq hplace hin
    have := exitSlot_place h ends hplace hin
    rw [Option.some_inj.mp heq] at this
    exact this
  cases m with
  | quit =>
    obtain ⟨hpc, heq⟩ := Option.ite_none_right_eq_some.mp hstep
    cases heq
    rw [hpc]
    exact ⟨rfl, rfl⟩
  | lock raises =>
    obtain ⟨hpc, heq⟩ := Option.ite_none_right_eq_some.mp hstep
    rw [hpc]
    cases raises <;> cases heq <;> exact ⟨rfl, rfl, rfl, rfl⟩
  | unwind =>
    obtain ⟨hpc, heq⟩ := Option.ite_none_right_eq_some.mp hstep
    cases heq
    rw [hpc]
    exact ⟨rfl, rfl, rfl, rfl⟩
  | submit raises =>
    obtain ⟨hpc, heq⟩ := Option.ite_none_right_eq_some.mp hstep
    cases raises with
    | true => exact hexit heq (by rw [hpc]; rfl) (by rw [hpc]; rfl)
    | false =>
      cases heq
      rw [hpc]
      exact ⟨rfl, rfl⟩
  | leave ends =>
    obtain ⟨hpc, heq⟩ := Option.ite_none_right_eq_some.mp hstep
    exact hexit heq (by rw [hpc]; rfl) (by rw [hpc]; rfl)
  | start k =>
    obtain ⟨-, heq⟩ := Option.ite_none_right_eq_some.mp hstep
    cases heq
    exact ⟨rfl, rfl⟩
  | finish k =>
    obtain ⟨-, heq⟩ := Option.ite_none_right_eq_some.mp hstep
    cases heq
    exact ⟨rfl, rfl⟩
  | deliver =>
    simp only [handlerStep] at hstep
    split at hstep
    case h_2 => cases hstep
    rename_i hpc
    obtain ⟨-, heq⟩ := Option.ite_none_right_eq_some.mp hstep
    cases heq
    rw [hpc]
    exact ⟨rfl, rfl⟩
  | relay =>
    simp only [handlerStep] at hstep
    split at hstep
    case h_2 => cases hstep
    obtain ⟨-, heq⟩ := Option.ite_none_right_eq_some.mp hstep
    cases heq
    exact ⟨rfl, rfl⟩
  | wake raised =>
    simp only [handlerStep] at hstep
    split at hstep
    case h_1 => cases hstep
    case h_2 hpc =>
      split at hstep
      · cases hstep
      · exact hexit hstep (by rw [hpc]; rfl) (by rw [hpc]; rfl)
    case h_3 hpc => exact hexit hstep (by rw [hpc]; rfl) (by rw [hpc]; rfl)
    case h_4 hpc =>
      cases raised with
      | true => exact hexit hstep (by rw [hpc]; rfl) (by rw [hpc]; rfl)
      | false =>
        cases hstep
        rw [hpc]
        exact ⟨rfl, rfl⟩
    case h_5 => cases hstep
  | drained =>
    simp only [handlerStep] at hstep
    split at hstep
    case h_2 => cases hstep
    rename_i ends hpc
    obtain ⟨-, heq⟩ := Option.ite_none_right_eq_some.mp hstep
    cases heq
    rw [hpc]
    refine ⟨rfl, rfl, ?_⟩
    cases ends <;> exact ⟨rfl, rfl⟩
  | cancel =>
    simp only [handlerStep] at hstep
    split at hstep <;> cases hstep
    all_goals
      rename_i hpc
      rw [hpc]
      exact ⟨rfl, rfl⟩

/-- **The step lemma for the jobs.** -/
theorem handlerStep_ok (hok : h.Ok) (honce : m = .cancel → h.cancels = 0)
    (hstep : handlerStep h m = some (h', op)) : h'.Ok := by
  cases m with
  | quit =>
    obtain ⟨hpc, heq⟩ := Option.ite_none_right_eq_some.mp hstep
    cases heq
    rw [Handler.Ok, hpc] at hok
    exact hok
  | lock raises =>
    obtain ⟨hpc, heq⟩ := Option.ite_none_right_eq_some.mp hstep
    rw [Handler.Ok, hpc] at hok
    cases raises with
    | true =>
      cases heq
      exact Handler.ok_behind hok.2
    | false =>
      cases heq
      exact hok
  | unwind =>
    obtain ⟨hpc, heq⟩ := Option.ite_none_right_eq_some.mp hstep
    rw [Handler.Ok, hpc] at hok
    cases heq
    exact Handler.ok_behind hok.2
  | submit raises =>
    obtain ⟨hpc, heq⟩ := Option.ite_none_right_eq_some.mp hstep
    obtain ⟨hfrom, hdone⟩ := hok.of_body hpc
    cases raises with
    | true =>
      rw [← fst_of_exitSlot heq]
      exact Handler.ok_exitSlot_of_done hdone
    | false =>
      cases heq
      exact ⟨h.jobs, .pending, ⟨rfl, hfrom, hdone⟩, by simp, by simp⟩
  | leave ends =>
    obtain ⟨hpc, heq⟩ := Option.ite_none_right_eq_some.mp hstep
    rw [← fst_of_exitSlot heq]
    exact Handler.ok_exitSlot_of_done (hok.of_body hpc).2
  | start k =>
    obtain ⟨hk, heq⟩ := Option.ite_none_right_eq_some.mp hstep
    cases heq
    exact hok.set hk rfl
  | finish k =>
    obtain ⟨hk, heq⟩ := Option.ite_none_right_eq_some.mp hstep
    cases heq
    exact hok.set hk rfl
  | deliver =>
    simp only [handlerStep] at hstep
    split at hstep
    case h_2 => cases hstep
    rename_i hpc
    obtain ⟨hlast, heq⟩ := Option.ite_none_right_eq_some.mp hstep
    cases heq
    obtain ⟨first, last, hl, -, hcancels⟩ := hok.of_awaiting hpc
    rw [hl.jobs_eq, List.getLast?_append_of_ne_nil _ (by simp)] at hlast
    have hlast : last = .finished := Option.some_inj.mp hlast
    refine ⟨first, last, ⟨hl.jobs_eq, hl.slotFrom_le, hl.first_done⟩, fun _ => by rw [hlast]; rfl, ?_⟩
    rintro (hwrapped | hmust)
    · exact hcancels (Or.inl (Fut.setResult_eq_cancelled.mp hwrapped))
    · exact hcancels (Or.inr hmust)
  | relay =>
    simp only [handlerStep] at hstep
    split at hstep
    case h_2 => cases hstep
    obtain ⟨hlast, heq⟩ := Option.ite_none_right_eq_some.mp hstep
    cases heq
    rw [List.getLast?_eq_getElem?] at hlast
    exact hok.set hlast rfl
  | wake raised =>
    simp only [handlerStep] at hstep
    split at hstep
    case h_1 => cases hstep
    case h_2 hpc =>
      -- cancelled: whatever is still under way, `drain` waits for it
      split at hstep
      · cases hstep
      obtain ⟨first, last, hl, -, hcancels⟩ := hok.of_awaiting hpc
      rw [← fst_of_exitSlot hstep]
      exact Handler.ok_exitSlot_of_last hl (hcancels (Or.inl rfl))
    case h_3 hpc =>
      obtain ⟨first, last, hl, hdone, -⟩ := hok.of_awaiting hpc
      rw [← fst_of_exitSlot hstep]
      exact Handler.ok_exitSlot_of_done (hl.all_done (hdone rfl))
    case h_4 hpc =>
      obtain ⟨first, last, hl, hdone, -⟩ := hok.of_awaiting hpc
      have hall := hl.all_done (hdone rfl)
      cases raised with
      | true =>
        rw [← fst_of_exitSlot hstep]
        exact Handler.ok_exitSlot_of_done hall
      | false =>
        cases hstep
        refine ⟨?_, hall⟩
        have := hl.slotFrom_le
        simp only [hl.jobs_eq, List.length_append]
        omega
    case h_5 => cases hstep
  | drained =>
    simp only [handlerStep] at hstep
    split at hstep
    case h_2 => cases hstep
    rename_i hpc
    obtain ⟨hwait, heq⟩ := Option.ite_none_right_eq_some.mp hstep
    cases heq
    obtain ⟨⟨first, last, hl⟩, rfl, -⟩ := hok.of_draining hpc
    rw [Bool.false_or] at hwait
    exact Handler.ok_behind (hl.all_done (hl.done_of_futures hwait))
  | cancel =>
    have hzero := honce rfl
    simp only [handlerStep] at hstep
    split at hstep
    case h_1 hpc =>
      cases hstep
      rw [Handler.Ok, hpc] at hok
      exact hok
    case h_2 hpc =>
      cases hstep
      rw [Handler.Ok, hpc] at hok
      exact hok
    case h_3 hpc =>
      cases hstep
      obtain ⟨first, last, hl, hdone, -⟩ := hok.of_awaiting hpc
      exact ⟨first, last, ⟨hl.jobs_eq, hl.slotFrom_le, hl.first_done⟩,
        fun hwrapped => hdone (Fut.cancel_eq_done.mp hwrapped), fun _ => Nat.succ_ne_zero _⟩
    case h_4 hpc =>
      -- who is in `drain` has been cancelled before
      exact absurd hzero (hok.of_draining hpc).2.2
    all_goals cases hstep

/-- A handler has at most one thread in the backend, and only in its slot. -/
theorem Handler.Ok.threads_le (hok : h.Ok) : h.threads ≤ if h.pc.inSlot then 1 else 0 := by
  have hzero : ∀ {jobs : List Job}, (∀ job ∈ jobs, job.done = true) → jobs.count .running = 0 := by
    intro jobs hdone
    refine List.count_eq_zero.mpr fun hmem => ?_
    have := hdone _ hmem
    cases this
  have hlast : ∀ {first last}, h.Last first last → h.threads ≤ 1 := by
    intro first last hl
    rw [Handler.threads, hl.jobs_eq, List.count_append, hzero hl.first_done, Nat.zero_add]
    exact List.count_le_length
  rcases hpc : h.pc with _ | _ | mustCancel | _ | ⟨wrapped, mustCancel⟩ | ⟨mustCancel, ends⟩ | _
  case awaiting =>
    obtain ⟨first, last, hl, -⟩ := hok.of_awaiting hpc
    exact hlast hl
  case draining =>
    obtain ⟨⟨first, last, hl⟩, -⟩ := hok.of_draining hpc
    exact hlast hl
  all_goals
    rw [Handler.Ok, hpc] at hok
    rw [Handler.threads, hzero hok.2]
    exact Nat.zero_le _

end HandlerStep

end AsrSlots
end OpenVoiceStream
