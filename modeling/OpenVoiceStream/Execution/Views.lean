import OpenVoiceStream.Execution.Model

/-!
# What a request owes

Of a request and its parties little counts for the leases: how far the request is,
what has become of the call, who waits for it.  `agentStep_shift` says everything one
move can do in these terms, whatever is cancelled, and `View.Inv.shift` what it keeps.

## Main definitions

* `View`, `Req.view` — what counts.
* `Shift` — the moves.
* `View.Inv` — the invariant of one request.

## Main results

* `agentStep_shift` — every move is one of those.
* `View.Inv.shift` — they keep the invariant, if no decode is abandoned while it runs.
-/

namespace OpenVoiceStream
namespace Execution

/-- How far a request is: its steps in their order, those between the submission of the call and
the first `__aexit__` being one. -/
def Pc.rank : Pc → ℕ
  | .idle => 0
  | .entering => 1
  | .waiting => 2
  | .admitted | .sendingRate | .sendingStarted => 3
  | .polling | .absorbing | .receiving | .sendingChunk | .sendingLast _ | .sendingDone => 4
  | .joining | .decoding => 4
  | .leavingSlot => 5
  | .leavingManager => 6
  | .exiting => 7
  | .ended => 8

/-- Who is to look after the call. -/
inductive Place
  /-- The owner task, which the request polls. -/
  | polling
  /-- The request itself, at a plain `await`. -/
  | decoding
  | other
  deriving DecidableEq, Repr

/-- Where the request stands in that respect. -/
def Pc.place : Pc → Place
  | .polling | .absorbing => .polling
  | .decoding => .decoding
  | _ => .other

/-- Everything that counts for the leases. -/
structure View where
  rank : ℕ
  place : Place
  job : Job
  fut : Fut
  owner : Owner
  marks : List Mark

/-- The view of a request. -/
def Req.view (r : Req) : View :=
  { rank := r.pc.rank, place := r.pc.place, job := r.job, fut := r.fut, owner := r.owner,
    marks := r.marks }

section Shifts

variable {β : Type}

/-- What a move does; `throws` says that it delivers a cancellation. -/
inductive Shift (throws : Bool) (program : Program) (managed : Bool) (ctx : Backend.Ctx β)
    (free : Bool) (v : View) : View → LeaseOp → Prop
  /-- Nothing. -/
  | stay : Shift throws program managed ctx free v v .keep
  | ask (h : v.rank = 0) :
      Shift throws program managed ctx free v { v with rank := 1 } (if managed then .enter else .keep)
  /-- It is cancelled before it starts. -/
  | quit (h : v.rank = 0) : Shift throws program managed ctx free v { v with rank := 8 } .keep
  /-- The manager is not ready. -/
  | refuse (h : v.rank = 1) (hmanaged : managed = true) (hctx : ctx = .outside) :
      Shift throws program managed ctx free v { v with rank := 8 } .keep
  | entered (n : ℕ) (h : v.rank = 1) (hn : n = 2 ∨ n = 6) (hmanaged : managed = true)
      (hctx : ctx ≠ .outside) :
      Shift throws program managed ctx free v
        { v with rank := n, marks := v.marks ++ [.managed] } .keep
  /-- There is no manager to ask. -/
  | unmanaged (n : ℕ) (h : v.rank = 1) (hn : n = 2 ∨ n = 6) (hmanaged : managed = false) :
      Shift throws program managed ctx free v { v with rank := n } .keep
  /-- It leaves without the coordinator. -/
  | skip (h : v.rank = 2) : Shift throws program managed ctx free v { v with rank := 6 } .keep
  | take (h : v.rank = 2) (hfree : free = true) :
      Shift throws program managed ctx free v
        { v with rank := 3, marks := v.marks ++ [.admitted] } .take
  /-- An owner is made for the call. -/
  | own (watched : Bool) (h : v.rank = 3) (hprogram : program = .finite watched) :
      Shift throws program managed ctx free v
        { v with rank := 4, place := .polling, owner := .created } .keep
  /-- It leaves without a call. -/
  | stop (h : v.rank = 3) : Shift throws program managed ctx free v { v with rank := 4 } .keep
  | submit (place : Place) (h : v.rank = 3) (hpolling : place ≠ .polling)
      (hplace : place = .decoding → program = .decode) :
      Shift throws program managed ctx free v
        { v with rank := 4, place := place, job := .queued, marks := v.marks ++ [.submitted] } .keep
  | ownSubmit (owner : Owner) (h : v.owner = .created)
      (howner : owner ≠ .none ∧ owner ≠ .created ∧ owner ≠ .done) :
      Shift throws program managed ctx free v
        { v with job := .queued, owner := owner, marks := v.marks ++ [.submitted] } .keep
  | ownStep (owner : Owner) (h : v.owner ≠ .none ∧ v.owner ≠ .created ∧ v.owner ≠ .done)
      (howner : owner ≠ .none ∧ owner ≠ .created) (hdone : owner = .done → v.fut.isDone = true) :
      Shift throws program managed ctx free v { v with owner := owner } .keep
  /-- The owner has ended. -/
  | owned (hrank : v.rank = 4) (h : v.place = .polling) (hdone : v.owner = .done) :
      Shift throws program managed ctx free v { v with rank := 5, place := .other } .keep
  /-- The call has ended, if there was one. -/
  | finish (h : v.rank = 4) (hplace : v.place ≠ .polling)
      (hdone : v.job = .none ∨ v.fut.isDone = true) :
      Shift throws program managed ctx free v { v with rank := 5, place := .other } .keep
  /-- The decode is left to itself. -/
  | abandon (hthrows : throws = true) (hrank : v.rank = 4) (h : v.place = .decoding) :
      Shift throws program managed ctx free v
        { v with
          rank := 5
          place := .other
          fut := v.fut.cancel
          job := if v.job = .queued then .dropped else v.job } .keep
  | give (h : v.rank = 5) :
      Shift throws program managed ctx free v { v with rank := 6, marks := v.marks ++ [.freed] } .give
  | leave (h : v.rank = 6) (hmanaged : managed = true) :
      Shift throws program managed ctx free v { v with rank := 7, marks := v.marks ++ [.left] } .leave
  | skipLeave (h : v.rank = 6) (hmanaged : managed = false) :
      Shift throws program managed ctx free v { v with rank := 8 } .keep
  | exit (h : v.rank = 7) (hctx : ctx = .outside) :
      Shift throws program managed ctx free v { v with rank := 8 } .keep
  | jobStarts (h : v.job = .queued) :
      Shift throws program managed ctx free v { v with job := .running } .keep
  | jobEnds (h : v.job = .running) :
      Shift throws program managed ctx free v { v with job := .returned } .keep
  | jobDone (h : v.job = .returned) (hfut : v.fut = .pending) :
      Shift throws program managed ctx free v
        { v with fut := .done, marks := v.marks ++ [.completed] } .keep

variable {mode : Mode} {program : Program} {managed free ok throws : Bool} {ctx : Backend.Ctx β} {r r' : Req}
  {m : Move}

/-- Between the two contexts a request goes on, or leaves. -/
theorem entered_view (program : Program) (ok : Bool) (hplace : r.pc.place = .other) :
    ∃ n, (n = 2 ∨ n = 6) ∧ (Req.entered program ok r).view = { r.view with rank := n } := by
  have hgo : ∀ b : Bool, ∃ n, (n = 2 ∨ n = 6) ∧
      ({ r with pc := if b then .waiting else .leavingManager } : Req).view =
        { r.view with rank := n } := by
    intro b
    cases b with
    | true => exact ⟨2, .inl rfl, by rw [Req.view, Req.view, hplace]; rfl⟩
    | false => exact ⟨6, .inr rfl, by rw [Req.view, Req.view, hplace]; rfl⟩
  cases program with
  | finite watched => exact hgo ok
  | decode => exact hgo ok
  | drain =>
    have hstop : Req.entered .drain ok r =
        { r with pc := if !r.stop then .waiting else .leavingManager } := by
      cases hstop : r.stop <;> simp [Req.entered, hstop]
    rw [hstop]
    exact hgo _

theorem advance_shift (h : advance mode program managed ctx free r ok = some m) :
    Shift throws program managed ctx free r.view m.req.view m.op := by
  rcases r with ⟨pc, cancelling, stop, job, fut, owner, watcher, queue, detached, marks⟩
  cases pc with
  | entering =>
    cases managed with
    | true =>
      cases ctx with
      | held backend =>
        cases h
        obtain ⟨n, hn, hview⟩ := entered_view (r := ⟨.entering, cancelling, stop, job, fut,
          owner, watcher, queue, detached, marks ++ [.managed]⟩) program ok rfl
        rw [hview]
        exact .entered n rfl hn rfl (by simp)
      | outside =>
        cases h
        exact .refuse rfl rfl rfl
      | entering => cases h
      | leaving backend => cases h
    | false =>
      cases h
      obtain ⟨n, hn, hview⟩ := entered_view (r := ⟨.entering, cancelling, stop, job, fut,
        owner, watcher, queue, detached, marks⟩) program ok rfl
      rw [hview]
      exact .unmanaged n rfl hn rfl
  | waiting =>
    simp only [advance] at h
    split at h
    case isFalse => cases h
    rename_i hfree
    split at h <;> cases h
    · exact .skip rfl
    · exact .take rfl hfree
  | admitted =>
    cases h
    cases program with
    | finite watched => exact .own watched rfl rfl
    | drain =>
      cases stop with
      | true => exact .stop rfl
      | false => cases ok <;> exact .stay
    | decode => exact .submit .decoding rfl (by simp) fun _ => rfl
  | leavingSlot =>
    cases h
    exact .give rfl
  | leavingManager =>
    cases managed <;> cases h
    · exact .skipLeave rfl rfl
    · exact .leave rfl rfl
  | exiting =>
    cases ctx <;> cases h
    exact .exit rfl rfl
  | _ => cases h

/-- The end of the loop of a drain. -/
theorem finish_shift (hrank : r.pc.rank = 4) (hplace : r.pc.place = .other) :
    Shift throws program managed ctx free r.view r.finish.view .keep := by
  have : r.finish.view = r.view := by
    rcases r with ⟨pc, cancelling, stop, job, fut, owner, watcher, queue, detached, marks⟩
    cases stop <;> simp_all [Req.finish, Req.view, Pc.rank, Pc.place]
  rw [this]
  exact .stay

theorem resume_shift (h : resume r ok = some r') :
    Shift throws program managed ctx free r.view r'.view .keep := by
  rcases r with ⟨pc, cancelling, stop, job, fut, owner, watcher, queue, detached, marks⟩
  cases pc with
  | polling =>
    cases h
    by_cases howner : owner = .done
    · subst howner
      exact .owned rfl rfl rfl
    · simp only [howner, if_false]
      exact .stay
  | absorbing =>
    cases h
    by_cases howner : owner = .done
    · subst howner
      exact .owned rfl rfl rfl
    · simp only [howner, if_false]
      exact .stay
  | sendingRate =>
    cases h
    by_cases hstop : ok = false ∨ stop = true
    · simp only [hstop, if_true]
      exact .stop rfl
    · simp only [hstop, if_false]
      exact .stay
  | sendingStarted =>
    cases h
    by_cases hstop : ok = false ∨ stop = true
    · simp only [hstop, if_true]
      exact .stop rfl
    · simp only [hstop, if_false]
      exact .submit .other rfl (by simp) (by simp)
  | receiving =>
    cases queue with
    | nil => cases h
    | cons item queue =>
      simp only [resume] at h
      split at h
      · cases h
        exact finish_shift (r := ⟨.receiving, false, stop, job, fut, owner, watcher, queue, detached,
          marks⟩) rfl rfl
      · split at h <;> cases h <;> exact .stay
  | sendingChunk =>
    cases h
    cases ok <;> exact .stay
  | sendingLast guarded =>
    cases h
    split
    · exact finish_shift rfl rfl
    · exact .stay
  | sendingDone =>
    cases h
    exact .stay
  | joining =>
    simp only [resume] at h
    split at h <;> cases h
    rename_i hdone
    exact .finish rfl (by simp [Req.view, Pc.place]) hdone
  | decoding =>
    simp only [resume] at h
    split at h <;> cases h
    rename_i hdone
    exact .finish rfl (by simp [Req.view, Pc.place]) (.inr hdone)
  | _ => cases h

theorem throw_shift (h : throw r = some r') :
    Shift true program managed ctx free r.view r'.view .keep := by
  rcases r with ⟨pc, cancelling, stop, job, fut, owner, watcher, queue, detached, marks⟩
  cases pc with
  | idle =>
    cases h
    exact .quit rfl
  | waiting =>
    cases h
    exact .skip rfl
  | polling =>
    cases h
    by_cases howner : owner = .done
    · subst howner
      exact .owned rfl rfl rfl
    · simp only [howner, if_false]
      exact .stay
  | absorbing =>
    cases h
    by_cases howner : owner = .done
    · subst howner
      exact .owned rfl rfl rfl
    · simp only [howner, if_false]
      exact .stay
  | sendingRate =>
    cases h
    exact .stop rfl
  | sendingStarted =>
    cases h
    exact .stop rfl
  | receiving =>
    cases h
    exact .stay
  | sendingChunk =>
    cases h
    exact .stay
  | sendingLast guarded =>
    cases h
    exact .stay
  | sendingDone =>
    cases h
    exact .stay
  | joining =>
    cases h
    by_cases hdone : job = .none ∨ fut.isDone = true
    · simp only [hdone, if_true]
      exact .finish rfl (by simp [Req.view, Pc.place]) hdone
    · simp only [hdone, if_false]
      exact .stay
  | decoding =>
    cases h
    exact .abandon rfl rfl rfl
  | _ => cases h

theorem ownerStep_shift {watched : Bool} (h : ownerStep watched r ok = some r') :
    Shift throws program managed ctx free r.view r'.view .keep := by
  rcases r with ⟨pc, cancelling, stop, job, fut, owner, watcher, queue, detached, marks⟩
  cases owner with
  | created =>
    cases h
    cases watched <;> exact .ownSubmit _ rfl (by simp)
  | both =>
    simp only [ownerStep] at h
    split at h
    · cases h
      exact .ownStep _ (by simp [Req.view]) (by simp) (by simp)
    · split at h <;> cases h <;> exact .ownStep _ (by simp [Req.view]) (by simp) (by simp)
  | future =>
    simp only [ownerStep] at h
    split at h <;> cases h
    exact .ownStep _ (by simp [Req.view]) (by simp) (by simp)
  | disconnected =>
    simp only [ownerStep] at h
    split at h <;> cases h
    exact .ownStep _ (by simp [Req.view]) (by simp) (by simp)
  | joiningWatcher =>
    simp only [ownerStep] at h
    split at h <;> cases h
    exact .ownStep _ (by simp [Req.view]) (by simp) (by simp)
  | joiningFuture =>
    simp only [ownerStep] at h
    split at h <;> cases h
    rename_i hdone
    exact .ownStep _ (by simp [Req.view]) (by simp) fun _ => hdone
  | none => cases h
  | done => cases h

theorem threadStep_shift {kind : Kind} (h : threadStep program r kind = some r') :
    Shift throws program managed ctx free r.view r'.view .keep := by
  cases kind with
  | jobStarts =>
    simp only [threadStep] at h
    split at h <;> cases h
    rename_i hjob
    exact .jobStarts hjob
  | produce item =>
    simp only [threadStep] at h
    split at h <;> cases h
    exact .stay
  | jobEnds =>
    simp only [threadStep] at h
    split at h <;> cases h
    rename_i hjob
    exact .jobEnds hjob
  | jobDone =>
    simp only [threadStep] at h
    split at h <;> cases h
    rename_i hjob
    have hview : ({ r with fut := r.fut.setResult, marks := r.marks ++ [.completed] } : Req).view =
        { r.view with fut := .done, marks := r.view.marks ++ [.completed] } := by
      rw [hjob.2]
      rfl
    rw [hview]
    exact .jobDone hjob.1 hjob.2
  | _ => cases h

theorem taskStep_shift {kind : Kind}
    (h : taskStep mode program managed ctx free r kind = some m) :
    Shift (decide (kind = .throw)) program managed ctx free r.view m.req.view m.op := by
  cases kind with
  | begin =>
    simp only [taskStep] at h
    split at h <;> cases h
    rename_i hpc
    rcases r with ⟨pc, cancelling, stop, job, fut, owner, watcher, queue, detached, marks⟩
    cases hpc
    exact .ask rfl
  | advance ok => exact advance_shift h
  | resume ok =>
    simp only [taskStep] at h
    split at h
    case isFalse => cases h
    obtain ⟨r', hr, rfl⟩ := Option.map_eq_some_iff.mp h
    exact resume_shift hr
  | throw =>
    simp only [taskStep] at h
    split at h
    case isFalse => cases h
    obtain ⟨r', hr, rfl⟩ := Option.map_eq_some_iff.mp h
    exact throw_shift (r := { r with cancelling := false }) hr
  | timeout =>
    simp only [taskStep] at h
    split at h <;> cases h
    rename_i hpc
    split
    · exact finish_shift (by rw [hpc]; rfl) (by rw [hpc]; rfl)
    · rcases r with ⟨pc, cancelling, stop, job, fut, owner, watcher, queue, detached, marks⟩
      cases hpc
      exact .stay
  | cancel =>
    cases h
    exact .stay
  | stop =>
    cases h
    exact .stay
  | detach =>
    simp only [taskStep] at h
    split at h <;> cases h
    exact .stay
  | _ => cases h

/-- **What a move does.** -/
theorem agentStep_shift {kind : Kind} (h : agentStep mode program managed ctx free r kind = some m) :
    Shift (decide (kind = .throw)) program managed ctx free r.view m.req.view m.op := by
  have hthread : ∀ kind, (threadStep program r kind).map (fun r => ({ req := r } : Move)) = some m →
      Shift (decide (kind = .throw)) program managed ctx free r.view m.req.view m.op := by
    intro kind h
    obtain ⟨r', hr, rfl⟩ := Option.map_eq_some_iff.mp h
    exact threadStep_shift hr
  have htask : ∀ kind, taskStep mode program managed ctx free r kind = some m →
      Shift (decide (kind = .throw)) program managed ctx free r.view m.req.view m.op := fun _ h => taskStep_shift h
  cases kind with
  | own ok =>
    cases program with
    | finite watched =>
      obtain ⟨r', hr, rfl⟩ := Option.map_eq_some_iff.mp h
      exact ownerStep_shift hr
    | drain => cases h
    | decode => cases h
  | watcherEnds how =>
    simp only [agentStep] at h
    split at h <;> cases h
    exact .stay
  | jobStarts => exact hthread _ h
  | produce item => exact hthread _ h
  | jobEnds => exact hthread _ h
  | jobDone => exact hthread _ h
  | begin => exact htask .begin h
  | advance ok => exact htask (.advance ok) h
  | resume ok => exact htask (.resume ok) h
  | throw => exact htask .throw h
  | timeout => exact htask .timeout h
  | cancel => exact htask .cancel h
  | stop => exact htask .stop h
  | detach => exact htask .detach h

end Shifts

/-! ### The invariant -/

/-- The order of the marks. -/
def Mark.rank : Mark → ℕ
  | .managed => 0
  | .admitted => 1
  | .submitted => 2
  | .completed => 3
  | .freed => 4
  | .left => 5

/-- The rank of the next mark. -/
def View.level (v : View) : ℕ :=
  if v.rank ≤ 1 then 0
  else if v.rank = 2 then 1
  else if v.rank ≤ 5 then (if v.job = .none then 2 else if v.fut = .done then 4 else 3)
  else if v.rank = 6 then 5
  else 6

/-- The thread has nothing to do with the call any more. -/
def Job.gone : Job → Bool
  | .returned | .dropped => true
  | .none | .queued | .running => false

/-- The invariant of one request. -/
structure View.Inv (program : Program) (managed : Bool) (v : View) : Prop where
  ordered : v.marks.Pairwise fun a b => a.rank < b.rank
  below : ∀ m ∈ v.marks, m.rank < v.level
  submitted : .submitted ∈ v.marks ↔ v.job ≠ .none
  completed : .completed ∈ v.marks ↔ v.fut = .done
  freed : 6 ≤ v.rank → .admitted ∈ v.marks → .freed ∈ v.marks
  left : 7 ≤ v.rank → .managed ∈ v.marks → .left ∈ v.marks
  managed : .managed ∈ v.marks → managed = true
  returned : v.fut = .done → v.job = .returned
  cancelled : v.fut = .cancelled → program = .decode ∧ 5 ≤ v.rank
  early : v.rank ≤ 3 → v.job = .none
  /-- Nobody goes on before the call has ended. -/
  settled : 5 ≤ v.rank → v.job = .none ∨ v.fut = .done ∨
    program = .decode ∧ v.fut = .cancelled ∧ v.job.gone = true
  place : v.place ≠ .other → v.rank = 4
  decoding : v.place = .decoding → program = .decode
  polling : v.place = .polling → v.owner ≠ .none ∧ ∃ watched, program = .finite watched
  owner : v.place ≠ .polling → v.owner = .none ∨ v.owner = .done
  created : v.owner = .created → v.job = .none
  ownerDone : v.owner = .done → v.fut = .done

theorem fresh_inv (program : Program) (managed : Bool) : (Req.fresh.view).Inv program managed := by
  constructor <;> simp [Req.view, Req.fresh, Pc.rank, Pc.place]

section Invariant

variable {program : Program} {managed : Bool} {v : View}

/-- The next mark comes later the further a request is. -/
theorem level_le (v : View) {n : ℕ} (place : Place) (marks : List Mark) (hn : v.rank ≤ n) :
    v.level ≤ View.level { v with rank := n, place := place, marks := marks } := by
  have hbusy : ∀ a : ℕ, a = (if v.job = .none then 2 else if v.fut = .done then 4 else 3) →
      2 ≤ a ∧ a ≤ 4 := by
    rintro a rfl
    split_ifs <;> omega
  simp only [View.level]
  generalize hvalue : (if v.job = .none then 2 else if v.fut = .done then 4 else 3) = a
  obtain ⟨hlow, hhigh⟩ := hbusy a hvalue.symm
  split_ifs <;> omega

/-- A request has no marks to begin with. -/
theorem View.Inv.marks_eq_nil (hv : v.Inv program managed) (h : v.rank ≤ 1) : v.marks = [] := by
  rw [List.eq_nil_iff_forall_not_mem]
  intro m hm
  have := hv.below m hm
  simp [View.level, h] at this

/-- **The request goes on.** -/
theorem View.Inv.advance (hv : v.Inv program managed) {n : ℕ} {l : List Mark} (hn : v.rank ≤ n)
    (howner : v.owner = .none ∨ v.owner = .done)
    (hsettled : 5 ≤ n → v.job = .none ∨ v.fut = .done ∨
      program = .decode ∧ v.fut = .cancelled ∧ v.job.gone = true)
    (hl : l.Pairwise fun a b => a.rank < b.rank)
    (hlevel : ∀ m ∈ l, v.level ≤ m.rank ∧ m.rank < View.level { v with rank := n })
    (hsubmitted : .submitted ∉ l) (hcompleted : .completed ∉ l)
    (hmanaged : .managed ∈ l → managed = true)
    (hfreed : 6 ≤ n → .admitted ∈ v.marks ++ l → .freed ∈ v.marks ++ l)
    (hleft : 7 ≤ n → .managed ∈ v.marks ++ l → .left ∈ v.marks ++ l) :
    ({ v with rank := n, place := .other, marks := v.marks ++ l } : View).Inv program managed where
  ordered := by
    rw [List.pairwise_append]
    refine ⟨hv.ordered, hl, ?_⟩
    intro a ha b hb
    exact (hv.below a ha).trans_le (hlevel b hb).1
  below := by
    intro m hm
    rcases List.mem_append.mp hm with hm | hm
    · exact (hv.below m hm).trans_le (level_le v .other (v.marks ++ l) hn)
    · exact (hlevel m hm).2
  submitted := by
    rw [List.mem_append, or_iff_left hsubmitted]
    exact hv.submitted
  completed := by
    rw [List.mem_append, or_iff_left hcompleted]
    exact hv.completed
  freed := hfreed
  left := hleft
  managed := by
    intro hm
    rcases List.mem_append.mp hm with hm | hm
    · exact hv.managed hm
    · exact hmanaged hm
  returned := hv.returned
  cancelled := by
    intro hfut
    obtain ⟨hprogram, hrank⟩ := hv.cancelled hfut
    exact ⟨hprogram, hrank.trans hn⟩
  early := by
    intro (h : n ≤ 3)
    exact hv.early (hn.trans h)
  settled := hsettled
  place := by
    intro h
    exact absurd rfl h
  decoding := by
    intro h
    cases h
  polling := by
    intro h
    cases h
  owner := fun _ => howner
  created := hv.created
  ownerDone := hv.ownerDone

/-- The same without a mark, for a request that nobody polls. -/
theorem View.Inv.goto (hv : v.Inv program managed) {n : ℕ} (hn : v.rank ≤ n) (hne : v.rank ≠ 4)
    (hsettled : 5 ≤ n → v.job = .none ∨ v.fut = .done ∨
      program = .decode ∧ v.fut = .cancelled ∧ v.job.gone = true)
    (hfreed : 6 ≤ n → .admitted ∈ v.marks → .freed ∈ v.marks)
    (hleft : 7 ≤ n → .managed ∈ v.marks → .left ∈ v.marks) :
    ({ v with rank := n } : View).Inv program managed := by
  have hplace : v.place = .other := by
    by_contra h
    exact hne (hv.place h)
  have h := hv.advance hn (hv.owner (by simp [hplace])) hsettled .nil (by simp) (by simp)
    (by simp) (by simp) (by simpa using hfreed) (by simpa using hleft)
  rw [List.append_nil, ← hplace] at h
  exact h

/-- The same with one mark. -/
theorem View.Inv.goto_mark (hv : v.Inv program managed) {n : ℕ} {m : Mark} (hn : v.rank ≤ n)
    (hne : v.rank ≠ 4)
    (hsettled : 5 ≤ n → v.job = .none ∨ v.fut = .done ∨
      program = .decode ∧ v.fut = .cancelled ∧ v.job.gone = true)
    (hlevel : v.level ≤ m.rank) (hlevel' : m.rank < View.level { v with rank := n })
    (hsubmitted : m ≠ .submitted) (hcompleted : m ≠ .completed) (hmanaged : m = .managed → managed = true)
    (hfreed : 6 ≤ n → .admitted ∈ v.marks ++ [m] → .freed ∈ v.marks ++ [m])
    (hleft : 7 ≤ n → .managed ∈ v.marks ++ [m] → .left ∈ v.marks ++ [m]) :
    ({ v with rank := n, marks := v.marks ++ [m] } : View).Inv program managed := by
  have hplace : v.place = .other := by
    by_contra h
    exact hne (hv.place h)
  have h := hv.advance hn (hv.owner (by simp [hplace])) hsettled (List.pairwise_singleton _ _)
    (by simpa using ⟨hlevel, hlevel'⟩) (by simpa using hsubmitted.symm)
    (by simpa using hcompleted.symm) (by simpa [eq_comm] using hmanaged) hfreed hleft
  rw [← hplace] at h
  exact h

/-- The call is handed to the executor. -/
theorem View.Inv.submit (hv : v.Inv program managed) (place : Place) (owner : Owner)
    (hjob : v.job = .none) (hrank : 3 ≤ v.rank) (hrank' : v.rank ≤ 4)
    (hdecoding : place = .decoding → program = .decode)
    (hpolling : place = .polling → owner ≠ .none ∧ ∃ watched, program = .finite watched)
    (howner : place ≠ .polling → owner = .none) (hcreated : owner ≠ .created)
    (hdone : owner ≠ .done) :
    ({ v with
        rank := 4
        place := place
        job := .queued
        owner := owner
        marks := v.marks ++ [.submitted] } : View).Inv program managed := by
  have hfut : v.fut ≠ .done := by
    intro h
    have := hv.returned h
    rw [hjob] at this
    cases this
  have hlevel : v.level = 2 := by
    simp [View.level, hjob, show ¬ v.rank ≤ 1 by omega, show v.rank ≠ 2 by omega,
      show v.rank ≤ 5 by omega]
  constructor
  · rw [List.pairwise_append]
    refine ⟨hv.ordered, List.pairwise_singleton _ _, ?_⟩
    intro a ha b hb
    rw [List.mem_singleton] at hb
    subst hb
    have := hv.below a ha
    rw [hlevel] at this
    exact this
  · intro m hm
    have hnew : View.level { v with
        rank := 4
        place := place
        job := .queued
        owner := owner
        marks := v.marks ++ [.submitted] } = 3 := by simp [View.level, hfut]
    rw [hnew]
    rcases List.mem_append.mp hm with hm | hm
    · have := hv.below m hm
      omega
    · rw [List.mem_singleton] at hm
      subst hm
      decide
  · simp
  · simpa using hv.completed
  · intro (h : 6 ≤ 4)
    omega
  · intro (h : 7 ≤ 4)
    omega
  · simpa using hv.managed
  · intro h
    exact absurd h hfut
  · intro h
    have := (hv.cancelled h).2
    omega
  · intro (h : 4 ≤ 3)
    omega
  · intro (h : 5 ≤ 4)
    omega
  · intro _
    rfl
  · exact hdecoding
  · exact hpolling
  · intro h
    exact .inl (howner h)
  · intro h
    exact absurd h hcreated
  · intro h
    exact absurd h hdone

/-- The thread takes the call up, or ends it. -/
theorem View.Inv.run (hv : v.Inv program managed) {job : Job} (hbusy : v.job ≠ .none)
    (hjob : job ≠ .none) (hgone : v.job.gone = false) (hout : v.job ≠ .returned) :
    ({ v with job := job } : View).Inv program managed := by
  have hfut : v.fut ≠ .done := fun h => hout (hv.returned h)
  have hrank : ¬ 5 ≤ v.rank := by
    intro hrank
    rcases hv.settled hrank with hnone | hdone | ⟨-, -, hgone'⟩
    · exact hbusy hnone
    · exact hfut hdone
    · rw [hgone] at hgone'
      cases hgone'
  exact { hv with
    below := fun m hm => by
      have := hv.below m hm
      simp only [View.level, hbusy, hjob, if_false] at this ⊢
      exact this
    submitted := by simpa [hbusy, hjob] using hv.submitted
    returned := fun h => absurd h hfut
    early := fun h => absurd (hv.early h) hbusy
    settled := fun h => absurd h hrank
    created := fun h => absurd (hv.created h) hbusy }

/-- The future that is done on its own account carries a result before the end. -/
theorem View.Inv.fut_of_isDone (hv : v.Inv program managed) (hrank : v.rank ≤ 4)
    (hfut : v.fut.isDone = true) : v.fut = .done := by
  cases hcase : v.fut with
  | done => rfl
  | pending =>
    rw [hcase] at hfut
    cases hfut
  | cancelled =>
    -- only a decode that was left has a cancelled future
    have := (hv.cancelled hcase).2
    omega

/-- Who has an owner under way is polling it. -/
theorem View.Inv.place_of_owner (hv : v.Inv program managed) (hnone : v.owner ≠ .none)
    (hdone : v.owner ≠ .done) : v.place = .polling := by
  by_contra hplace
  rcases hv.owner hplace with h | h
  · exact hnone h
  · exact hdone h

/-- An owner is made for the call. -/
theorem View.Inv.own (hv : v.Inv program managed) {watched : Bool} (h : v.rank = 3)
    (hprogram : program = .finite watched) :
    ({ v with rank := 4, place := .polling, owner := .created } : View).Inv program managed := by
  have hjob := hv.early (by omega)
  have hfut : v.fut ≠ .done := by
    intro hfut
    have := hv.returned hfut
    rw [hjob] at this
    cases this
  exact { hv with
    below := fun m hm => (hv.below m hm).trans_le (level_le v .polling v.marks (by omega))
    freed := fun h => by simp at h
    left := fun h => by simp at h
    cancelled := fun hfut => by
      have := (hv.cancelled hfut).2
      omega
    early := fun h => by simp at h
    settled := fun h => by simp at h
    place := fun _ => rfl
    decoding := fun h => by cases h
    polling := fun _ => ⟨by simp, watched, hprogram⟩
    owner := fun h => absurd rfl h
    created := fun _ => hjob
    ownerDone := fun h => by cases h }

/-- The owner goes on. -/
theorem View.Inv.ownStep (hv : v.Inv program managed) {owner : Owner}
    (h : v.owner ≠ .none ∧ v.owner ≠ .created ∧ v.owner ≠ .done)
    (howner : owner ≠ .none ∧ owner ≠ .created) (hdone : owner = .done → v.fut.isDone = true) :
    ({ v with owner := owner } : View).Inv program managed := by
  have hplace := hv.place_of_owner h.1 h.2.2
  have hrank := hv.place (by simp [hplace])
  exact { hv with
    polling := fun h => ⟨howner.1, (hv.polling h).2⟩
    owner := fun h' => absurd hplace h'
    created := fun h' => absurd h' howner.2
    ownerDone := fun h' => hv.fut_of_isDone (by omega) (hdone h') }

/-- A decode is left to itself, and no thread is in it. -/
theorem View.Inv.abandon (hv : v.Inv program managed) (hrank : v.rank = 4) (h : v.place = .decoding)
    (hrun : v.job ≠ .running) :
    ({ v with
        rank := 5
        place := .other
        fut := v.fut.cancel
        job := if v.job = .queued then .dropped else v.job } : View).Inv program managed := by
  have hprogram := hv.decoding h
  have howner := hv.owner (by simp [h])
  have hjob : (if v.job = .queued then .dropped else v.job) = .none ↔ v.job = .none := by
    cases v.job <;> simp
  exact { hv with
    below := fun m hm => by
      have := hv.below m hm
      simp only [View.level, hrank, hjob, Fut.cancel_eq_done] at this ⊢
      simpa using this
    submitted := by
      rw [hv.submitted, ne_eq, ne_eq, hjob]
    completed := by
      rw [hv.completed, Fut.cancel_eq_done]
    freed := fun h => by simp at h
    left := fun h => by simp at h
    returned := fun hfut => by
      rw [hv.returned (Fut.cancel_eq_done.mp hfut)]
      rfl
    cancelled := fun _ => ⟨hprogram, le_rfl⟩
    early := fun h => by simp at h
    settled := fun _ => by
      cases hfut : v.fut with
      | done => exact .inr (.inl rfl)
      | pending | cancelled =>
        cases hcase : v.job with
        | none => exact .inl rfl
        | running => exact absurd hcase hrun
        | queued | returned | dropped => exact .inr (.inr ⟨hprogram, rfl, rfl⟩)
    place := fun h => absurd rfl h
    decoding := fun h => by cases h
    polling := fun h => by cases h
    owner := fun _ => howner
    created := fun h => hjob.mpr (hv.created h)
    ownerDone := fun h => Fut.cancel_eq_done.mpr (hv.ownerDone h) }

/-- While the future of a call is pending the request waits for it. -/
theorem View.Inv.rank_of_pending (hv : v.Inv program managed) (hjob : v.job ≠ .none)
    (hfut : v.fut = .pending) : v.rank = 4 := by
  have hlow : ¬ v.rank ≤ 3 := fun hrank => hjob (hv.early hrank)
  have hhigh : ¬ 5 ≤ v.rank := by
    intro hrank
    rcases hv.settled hrank with hnone | hdone | ⟨-, hcancelled, -⟩
    · exact hjob hnone
    · rw [hfut] at hdone
      cases hdone
    · rw [hfut] at hcancelled
      cases hcancelled
  omega

/-- The executor future gets its result. -/
theorem View.Inv.complete (hv : v.Inv program managed) (h : v.job = .returned)
    (hfut : v.fut = .pending) :
    ({ v with fut := .done, marks := v.marks ++ [.completed] } : View).Inv program managed := by
  have hjob : v.job ≠ .none := by simp [h]
  have hrank := hv.rank_of_pending hjob hfut
  exact { hv with
    ordered := by
      rw [List.pairwise_append]
      refine ⟨hv.ordered, List.pairwise_singleton _ _, ?_⟩
      intro a ha b hb
      rw [List.mem_singleton] at hb
      subst hb
      have := hv.below a ha
      rw [show v.level = 3 by simp [View.level, hrank, hjob, hfut]] at this
      exact this
    below := fun m hm => by
      have hlevel : View.level { v with fut := .done, marks := v.marks ++ [.completed] } = 4 := by
        simp [View.level, hrank, hjob]
      rw [hlevel]
      rcases List.mem_append.mp hm with hm | hm
      · have := hv.below m hm
        simp [View.level, hrank, hjob, hfut] at this
        omega
      · rw [List.mem_singleton] at hm
        subst hm
        decide
    submitted := by simpa using hv.submitted
    completed := by simp
    freed := fun h => by simp [hrank] at h
    left := fun h => by simp [hrank] at h
    managed := fun hm => hv.managed (by simpa using hm)
    returned := fun _ => h
    cancelled := fun h => by cases h
    settled := fun _ => .inr (.inl rfl)
    ownerDone := fun _ => rfl }

/-- **Every move keeps the invariant**, if it does not leave a decode while it runs. -/
theorem View.Inv.shift {β : Type} {ctx : Backend.Ctx β} {free throws : Bool} {v' : View}
    {op : LeaseOp} (hv : v.Inv program managed)
    (h : Shift throws program managed ctx free v v' op)
    (hok : throws = true → v.place = .decoding → v.job ≠ .running) : v'.Inv program managed := by
  have hunmarked : v.rank ≤ 1 → ∀ m, m ∉ v.marks := by
    intro hrank m hm
    rw [hv.marks_eq_nil hrank] at hm
    cases hm
  have hnotake : v.rank = 2 → .admitted ∉ v.marks := by
    intro hrank hm
    have := hv.below _ hm
    simp [View.level, hrank, Mark.rank] at this
  cases h with
  | stay => exact hv
  | ask h => exact hv.goto (by omega) (by omega) (by omega) (by omega) (by omega)
  | quit h =>
    exact hv.goto (by omega) (by omega) (fun _ => .inl (hv.early (by omega)))
      (fun _ hm => absurd hm (hunmarked (by omega) _))
      (fun _ hm => absurd hm (hunmarked (by omega) _))
  | refuse h hmanaged hctx =>
    exact hv.goto (by omega) (by omega) (fun _ => .inl (hv.early (by omega)))
      (fun _ hm => absurd hm (hunmarked (by omega) _))
      (fun _ hm => absurd hm (hunmarked (by omega) _))
  | entered n h hn hmanaged hctx =>
    have hnil := hv.marks_eq_nil (by omega)
    refine hv.goto_mark (by omega) (by omega) (fun _ => .inl (hv.early (by omega))) ?_ ?_ (by simp)
      (by simp) (fun _ => hmanaged) ?_ (by omega)
    · simp [View.level, h]
    · rcases hn with rfl | rfl <;> simp [View.level, Mark.rank]
    · intro _ hm
      simp [hnil] at hm
  | unmanaged n h hn hmanaged =>
    exact hv.goto (by omega) (by omega) (fun _ => .inl (hv.early (by omega)))
      (fun _ hm => absurd hm (hunmarked (by omega) _)) (by omega)
  | skip h =>
    exact hv.goto (by omega) (by omega) (fun _ => .inl (hv.early (by omega)))
      (fun _ hm => absurd hm (hnotake h)) (by omega)
  | take h hfree =>
    have hjob := hv.early (by omega)
    refine hv.goto_mark (by omega) (by omega) (by omega) ?_ ?_ (by simp) (by simp) (by simp)
      (by omega) (by omega)
    · simp [View.level, h, Mark.rank]
    · simp [View.level, hjob, Mark.rank]
  | own watched h hprogram => exact hv.own h hprogram
  | stop h =>
    refine hv.goto (by omega) (by omega) (by omega) (by omega) (by omega)
  | submit place h hpolling hplace =>
    have hother : v.place ≠ .polling := by
      intro h'
      have := hv.place (by simp [h'])
      omega
    have hjob := hv.early (by omega)
    have howner : v.owner = .none := by
      rcases hv.owner hother with hnone | hdone
      · exact hnone
      · have := hv.returned (hv.ownerDone hdone)
        rw [hjob] at this
        cases this
    have := hv.submit place .none hjob (by omega) (by omega) hplace
      (fun h => absurd h hpolling) (fun _ => rfl) (by simp) (by simp)
    rwa [← howner] at this
  | ownSubmit owner h howner =>
    have hplace := hv.place_of_owner (by simp [h]) (by simp [h])
    have hrank := hv.place (by simp [hplace])
    have := hv.submit v.place owner (hv.created h) (by omega) (by omega) hv.decoding
      (fun h => ⟨howner.1, (hv.polling h).2⟩) (fun h => absurd hplace h) howner.2.1
      howner.2.2
    rwa [← hrank] at this
  | ownStep owner h howner hdone => exact hv.ownStep h howner hdone
  | owned hrank h hdone =>
    have := hv.advance (n := 5) (by omega) (.inr hdone) (fun _ => .inr (.inl (hv.ownerDone hdone)))
      .nil (by simp) (by simp) (by simp) (by simp) (by omega) (by omega)
    rwa [List.append_nil] at this
  | finish h hplace hdone =>
    have hsettled : v.job = .none ∨ v.fut = .done :=
      hdone.imp_right fun hfut => hv.fut_of_isDone (by omega) hfut
    have := hv.advance (n := 5) (by omega) (hv.owner hplace)
      (fun _ => hsettled.imp_right .inl) .nil (by simp) (by simp) (by simp) (by simp) (by omega)
      (by omega)
    rwa [List.append_nil] at this
  | abandon hthrows hrank h => exact hv.abandon hrank h (hok hthrows h)
  | give h =>
    refine hv.goto_mark (by omega) (by omega) (fun _ => hv.settled (by omega)) ?_ ?_ (by simp)
      (by simp) (by simp) (fun _ _ => by simp) (by omega)
    · simp only [View.level, h, Mark.rank]
      split_ifs <;> omega
    · simp [View.level, Mark.rank]
  | leave h hmanaged =>
    refine hv.goto_mark (by omega) (by omega) (fun _ => hv.settled (by omega)) ?_ ?_ (by simp)
      (by simp) (by simp) ?_ (fun _ _ => by simp)
    · simp [View.level, h, Mark.rank]
    · simp [View.level, Mark.rank]
    · intro _ hm
      have hadmitted : .admitted ∈ v.marks := by simpa using hm
      exact List.mem_append_left _ (hv.freed (by omega) hadmitted)
  | skipLeave h hmanaged =>
    refine hv.goto (by omega) (by omega) (fun _ => hv.settled (by omega))
      (fun _ => hv.freed (by omega)) ?_
    intro _ hm
    have := hv.managed hm
    rw [hmanaged] at this
    cases this
  | exit h hctx =>
    exact hv.goto (by omega) (by omega) (fun _ => hv.settled (by omega))
      (fun _ => hv.freed (by omega)) (fun _ => hv.left (by omega))
  | jobStarts h => exact hv.run (by simp [h]) (by simp) (by simp [h, Job.gone]) (by simp [h])
  | jobEnds h => exact hv.run (by simp [h]) (by simp) (by simp [h, Job.gone]) (by simp [h])
  | jobDone h hfut => exact hv.complete h hfut

end Invariant

end Execution
end OpenVoiceStream
