import OpenVoiceStream.Arm.Gripper.Model

/-!
# Commands that are lost

A tick reads the state under the lock, sends its frame, and writes the next state under the
lock again.  It does not look whether the state is still the one it has read.  A command that
has set the state in between is overwritten by what was decided for the one before.

As long as no command sets the state between the read and the write of a tick that writes,
every state is left only by a decision made in it, and what the commands return is true.

## Main definitions

* `Write.Decided`, `Write.Owned` — a state was written for its reason, over the state that it
  was decided in.
* `Returned.Justified` — what a command has returned is true.
* `Gripper.overwrites` — a tick writes over what a command has set.

## Main results

* `Inv.step` — the step lemma.
* `command_kept` — every run.
-/

namespace OpenVoiceStream
namespace Gripper

/-- The state was written for this reason. -/
def Reason.Decides (read next : GS) : Reason → Prop
  | .arrived pos target => read = .opening ∧ next = .idle ∧ |pos - target| < gArriveTol
  | .stalled q target stall =>
    read = .opening ∧ next = .idle ∧ q ≤ target + 1 / 10 ^ 9 ∧ gOpenStallS ≤ stall
  | .hardStop pos => read = .closing ∧ next = .idle ∧ gHardStopAngle < pos
  | .touched _ vel => read = .closing ∧ next = .contact ∧ |vel| < gStallVel
  | .confirmed elapsed => read = .contact ∧ next = .holding ∧ gContactS ≤ elapsed
  | .home pos => read = .homing ∧ next = .idle ∧ |pos| < gArriveTol

/-- The target that it was decided with, if it was one. -/
def Reason.target : Reason → Option ℚ
  | .arrived _ target => some target
  | .stalled _ target _ => some target
  | _ => none

/-- A tick wrote over the state that it has decided in, with the target of the command that
has set it. -/
structure Write.Owned (w : Write) : Prop where
  decided : w.reason.Decides w.read w.next
  found : w.found = w.read
  seen : w.seen = w.epoch
  target : ∀ target, w.reason.target = some target → target = w.openTarget

/-- The jaw has arrived, or has stalled with the ramp at its end. -/
def Settled (writes : List Write) (epoch : ℕ) (target : ℚ) : Prop :=
  ∃ w ∈ writes, w.epoch = epoch ∧ w.read = .opening ∧
    ((∃ pos, w.reason = .arrived pos target ∧ |pos - target| < gArriveTol) ∨
      ∃ q stall, w.reason = .stalled q target stall ∧ q ≤ target + 1 / 10 ^ 9 ∧
        gOpenStallS ≤ stall)

/-- Contact was detected. -/
def Contacted (writes : List Write) (epoch : ℕ) : Prop :=
  ∃ w ∈ writes, w.epoch = epoch ∧ w.read = .closing ∧
    ∃ pos vel, w.reason = .touched pos vel ∧ |vel| < gStallVel

/-- What a command has returned is true of what was written since it has set the state. -/
def Returned.Justified (writes : List Write) : Returned → Prop
  | .opened epoch target true => Settled writes epoch target
  | .grasped epoch true => Contacted writes epoch
  | _ => True

/-- The next section of the tick writes a state. -/
def writesNow (g : Gripper) : Bool :=
  match g.tick with
  | .openingDone _ => true
  | .closingHardStop _ | .closingContact _ _ => true
  | .contactTimer dt => decide (gContactS ≤ g.contactElapsed + dt)
  | .homingDone _ => true
  | _ => false

/-- A tick writes, and a command has set the state since the tick has read it. -/
def overwrites (g : Gripper) : Act → Bool
  | .tick => g.writesNow && decide (g.seen ≠ g.epoch)
  | _ => false

/-! ### The invariant -/

/-- A tick that has read this state finds it again if no command has set it since. -/
def StillIn (g : Gripper) (read : GS) : Prop := g.seen = g.epoch → g.state = read

/-- Where the tick stands. -/
def TickOk (g : Gripper) : TickPc → Prop
  | .rest | .sensed _ | .holding _ => True
  | .opening _ => g.StillIn .opening
  | .openingStall _ q target =>
    g.StillIn .opening ∧ (g.seen = g.epoch → target = g.openTarget) ∧ q ≤ target + 1 / 10 ^ 9
  | .openingDone reason =>
    g.StillIn .opening ∧ reason.Decides .opening .idle ∧
      (g.seen = g.epoch → ∀ target, reason.target = some target → target = g.openTarget)
  | .closing _ => g.StillIn .closing
  | .closingHardStop pos => g.StillIn .closing ∧ gHardStopAngle < pos
  | .closingContact _ vel => g.StillIn .closing ∧ |vel| < gStallVel
  | .contact _ | .contactTimer _ => g.StillIn .contact
  | .homing => g.StillIn .homing
  | .homingDone pos => g.StillIn .homing ∧ |pos| < gArriveTol

/-- Where the command stands. -/
def CmdOk (state : GS) (openTarget : ℚ) (epoch : ℕ) (writes : List Write) : CmdPc → Prop
  | .openMark target | .openWait target =>
    openTarget = target ∧ (state = .opening ∨ Settled writes epoch target)
  | .graspWait _ => state = .closing ∨ state = .idle ∨ Contacted writes epoch
  | .graspRamp _ _ | .graspWindow _ _ _ | .graspCreep _ _ _ | .graspBump _ _ =>
    Contacted writes epoch
  | .none | .graspClose _ | .releaseWait | .releaseHome | .homeWait => True

/-- The invariant. -/
structure Inv (g : Gripper) : Prop where
  owned : ∀ w ∈ g.writes, w.Owned
  justified : ∀ r ∈ g.returned, r.Justified g.writes
  tick : g.TickOk g.tick
  cmd : CmdOk g.state g.openTarget g.epoch g.writes g.cmd
  seen : g.seen ≤ g.epoch

variable {g g' : Gripper} {writes : List Write} {w : Write}

theorem Settled.cons {epoch : ℕ} {target : ℚ} (h : Settled writes epoch target) (w : Write) :
    Settled (w :: writes) epoch target := by
  obtain ⟨w', hw', hrest⟩ := h
  exact ⟨w', List.mem_cons_of_mem w hw', hrest⟩

theorem Contacted.cons {epoch : ℕ} (h : Contacted writes epoch) (w : Write) :
    Contacted (w :: writes) epoch := by
  obtain ⟨w', hw', hrest⟩ := h
  exact ⟨w', List.mem_cons_of_mem w hw', hrest⟩

theorem Returned.Justified.cons {r : Returned} (h : r.Justified writes) (w : Write) :
    r.Justified (w :: writes) := by
  cases r with
  | opened epoch target ok =>
    cases ok with
    | true => exact Settled.cons h w
    | false => trivial
  | grasped epoch ok =>
    cases ok with
    | true => exact Contacted.cons h w
    | false => trivial
  | released => trivial

/-! ### The control thread -/

/-- A section that writes no state. -/
theorem Inv.quiet (h : g.Inv) (hstate : g'.state = g.state) (htarget : g'.openTarget = g.openTarget)
    (hcmd : g'.cmd = g.cmd) (hepoch : g'.epoch = g.epoch) (hwrites : g'.writes = g.writes)
    (hreturned : g'.returned = g.returned) (hseen : g'.seen ≤ g.epoch)
    (htick : g'.TickOk g'.tick) : g'.Inv := by
  refine ⟨hwrites ▸ h.owned, ?_, htick, ?_, hepoch ▸ hseen⟩
  · rw [hwrites, hreturned]
    exact h.justified
  · rw [hstate, htarget, hepoch, hwrites, hcmd]
    exact h.cmd

/-- A section that writes no state and reads none. -/
theorem Inv.section (h : g.Inv) (hstate : g'.state = g.state)
    (htarget : g'.openTarget = g.openTarget) (hcmd : g'.cmd = g.cmd) (hepoch : g'.epoch = g.epoch)
    (hwrites : g'.writes = g.writes) (hreturned : g'.returned = g.returned)
    (hseen : g'.seen = g.seen) (htick : g.TickOk g'.tick) : g'.Inv := by
  refine h.quiet hstate htarget hcmd hepoch hwrites hreturned (hseen.le.trans h.seen) ?_
  generalize g'.tick = pc at htick ⊢
  cases pc <;> simp only [TickOk, StillIn, hstate, htarget, hepoch, hseen] at htick ⊢ <;> exact htick

/-- What a reason says of the state it was read in. -/
theorem Reason.settles {target : ℚ} {w : Write} (hdecides : w.reason.Decides .opening w.next)
    (hread : w.read = .opening)
    (htarget : ∀ own, w.reason.target = some own → own = target) :
    Settled (w :: writes) w.epoch target := by
  refine ⟨w, List.mem_cons_self, rfl, hread, ?_⟩
  cases hreason : w.reason with
  | arrived pos own =>
    rw [hreason] at hdecides htarget
    obtain rfl := htarget own rfl
    exact .inl ⟨pos, rfl, hdecides.2.2⟩
  | stalled q own stall =>
    rw [hreason] at hdecides htarget
    obtain rfl := htarget own rfl
    exact .inr ⟨q, stall, rfl, hdecides.2.2⟩
  | hardStop pos => rw [hreason] at hdecides; cases hdecides.1
  | touched pos vel => rw [hreason] at hdecides; cases hdecides.1
  | confirmed elapsed => rw [hreason] at hdecides; cases hdecides.1
  | home pos => rw [hreason] at hdecides; cases hdecides.1

/-- `CLOSING` is left at the hard stop, or by a contact. -/
theorem Reason.closes {w : Write} (hdecides : w.reason.Decides .closing w.next)
    (hread : w.read = .closing) : w.next = .idle ∨ Contacted (w :: writes) w.epoch := by
  cases hreason : w.reason with
  | hardStop pos =>
    rw [hreason] at hdecides
    exact .inl hdecides.2.1
  | touched pos vel =>
    rw [hreason] at hdecides
    exact .inr ⟨w, List.mem_cons_self, rfl, hread, pos, vel, hreason, hdecides.2.2⟩
  | arrived pos target => rw [hreason] at hdecides; cases hdecides.1
  | stalled q target stall => rw [hreason] at hdecides; cases hdecides.1
  | confirmed elapsed => rw [hreason] at hdecides; cases hdecides.1
  | home pos => rw [hreason] at hdecides; cases hdecides.1

/-- A section that writes a state, where no command has set it since the tick has read it. -/
theorem Inv.wrote (h : g.Inv) {read next : GS} {reason : Reason} (hseen : g.seen = g.epoch)
    (hread : g.state = read) (hdecides : reason.Decides read next)
    (htarget : ∀ target, reason.target = some target → target = g.openTarget) :
    (g.write read next reason).Inv := by
  refine ⟨fun w hw => ?_, fun r hr => (h.justified r hr).cons _, trivial, ?_, h.seen⟩
  · rcases List.mem_cons.mp hw with rfl | hw
    · exact ⟨hdecides, hread, hseen, htarget⟩
    · exact h.owned w hw
  · have hwas := h.cmd
    show CmdOk next g.openTarget g.epoch
      (⟨read, g.seen, g.state, g.epoch, g.openTarget, next, reason⟩ :: g.writes) g.cmd
    generalize g.cmd = cmd at hwas ⊢
    cases cmd with
    | openMark target =>
      obtain ⟨rfl, hopening | hsettled⟩ := hwas
      · obtain rfl := hread.symm.trans hopening
        exact ⟨rfl, .inr (Reason.settles (w := ⟨_, _, _, _, _, _, _⟩) hdecides rfl htarget)⟩
      · exact ⟨rfl, .inr (hsettled.cons _)⟩
    | openWait target =>
      obtain ⟨rfl, hopening | hsettled⟩ := hwas
      · obtain rfl := hread.symm.trans hopening
        exact ⟨rfl, .inr (Reason.settles (w := ⟨_, _, _, _, _, _, _⟩) hdecides rfl htarget)⟩
      · exact ⟨rfl, .inr (hsettled.cons _)⟩
    | graspWait call =>
      rcases hwas with hclosing | hidle | hcontacted
      · obtain rfl := hread.symm.trans hclosing
        exact .inr (Reason.closes (w := ⟨_, _, _, _, _, _, _⟩) hdecides rfl)
      · -- a tick writes in no other state than the one it was decided in
        obtain rfl := hread.symm.trans hidle
        cases reason <;> cases hdecides.1
      · exact .inr (.inr (hcontacted.cons _))
    | graspRamp call tf => exact Contacted.cons hwas _
    | graspWindow call tf p0 => exact Contacted.cons hwas _
    | graspCreep call tf p0 => exact Contacted.cons hwas _
    | graspBump call tf => exact Contacted.cons hwas _
    | none => trivial
    | graspClose call => trivial
    | releaseWait => trivial
    | releaseHome => trivial
    | homeWait => trivial

theorem Inv.wrote_untargeted (h : g.Inv) {read : GS} (next : GS) (reason : Reason)
    (hseen : g.seen = g.epoch) (hread : g.state = read) (hdecides : reason.Decides read next)
    (hnone : reason.target = none) : (g.write read next reason).Inv :=
  h.wrote hseen hread hdecides fun target htarget => by rw [hnone] at htarget; cases htarget

/-- The control thread. -/
theorem Inv.tickNext (h : g.Inv) (hkeeps : g.overwrites .tick = false)
    (hnext : g.tickNext = some g') : g'.Inv := by
  have htick := h.tick
  have hseen (hnow : g.writesNow = true) : g.seen = g.epoch := by
    simpa [overwrites, hnow] using hkeeps
  unfold Gripper.tickNext at hnext
  cases hpc : g.tick with
  | rest => simp [hpc] at hnext
  | sensed dt =>
    simp only [hpc, Option.some_inj] at hnext
    subst hnext
    refine h.quiet rfl rfl rfl rfl rfl rfl le_rfl ?_
    show TickOk _ (g.branch dt)
    unfold branch
    split <;> rename_i hstate
    · trivial
    · exact fun _ => hstate
    · exact fun _ => hstate
    · exact fun _ => hstate
    · trivial
    · exact fun _ => hstate
  | opening dt =>
    rw [hpc] at htick
    simp only [hpc, Option.some_inj] at hnext
    subst hnext
    refine h.section rfl rfl rfl rfl rfl rfl rfl ?_
    dsimp only [afterOpening]
    split
    · rename_i harrived
      refine ⟨htick, ⟨rfl, rfl, harrived⟩, fun _ target htarget => ?_⟩
      exact (Option.some_inj.mp htarget).symm
    split
    · rename_i hramp
      exact ⟨htick, fun _ => rfl, hramp⟩
    · trivial
  | openingStall dt q target =>
    rw [hpc] at htick
    obtain ⟨hstill, htarget, hramp⟩ := htick
    simp only [hpc] at hnext
    split at hnext
    · rename_i hstall
      simp only [Option.some_inj] at hnext
      subst hnext
      refine h.section rfl rfl rfl rfl rfl rfl rfl ?_
      refine ⟨hstill, ⟨rfl, rfl, hramp, hstall⟩, fun hsame own hown => ?_⟩
      exact (Option.some_inj.mp hown).symm.trans (htarget hsame)
    · simp only [Option.some_inj] at hnext
      subst hnext
      exact h.section rfl rfl rfl rfl rfl rfl rfl trivial
  | openingDone reason =>
    rw [hpc] at htick
    have hsame := hseen (by simp [writesNow, hpc])
    simp only [hpc, Option.some_inj] at hnext
    subst hnext
    have hwrote := h.wrote hsame (htick.1 hsame) htick.2.1 (htick.2.2 hsame)
    exact hwrote.section rfl rfl rfl rfl rfl rfl rfl trivial
  | closing dt =>
    rw [hpc] at htick
    simp only [hpc, Option.some_inj] at hnext
    subst hnext
    refine h.section rfl rfl rfl rfl rfl rfl rfl ?_
    dsimp only [afterClosing]
    split
    · split
      · rename_i hstop
        exact ⟨htick, hstop⟩
      split
      · rename_i hstall
        exact ⟨htick, hstall⟩
      · trivial
    · trivial
  | closingHardStop pos =>
    rw [hpc] at htick
    have hsame := hseen (by simp [writesNow, hpc])
    simp only [hpc, Option.some_inj] at hnext
    subst hnext
    exact h.wrote_untargeted _ _ hsame (htick.1 hsame) ⟨rfl, rfl, htick.2⟩ rfl
  | closingContact pos vel =>
    rw [hpc] at htick
    have hsame := hseen (by simp [writesNow, hpc])
    simp only [hpc, Option.some_inj] at hnext
    subst hnext
    have hwrote := h.wrote_untargeted .contact (.touched pos vel) hsame (htick.1 hsame)
      ⟨rfl, rfl, htick.2⟩ rfl
    exact hwrote.section rfl rfl rfl rfl rfl rfl rfl trivial
  | contact dt =>
    rw [hpc] at htick
    simp only [hpc, Option.some_inj] at hnext
    subst hnext
    exact h.section rfl rfl rfl rfl rfl rfl rfl htick
  | contactTimer dt =>
    rw [hpc] at htick
    simp only [hpc] at hnext
    split at hnext <;> simp only [Option.some_inj] at hnext <;> subst hnext
    · rename_i hlong
      have hsame := hseen (by simp [writesNow, hpc, hlong])
      have hwrote := h.wrote_untargeted .holding (.confirmed (g.contactElapsed + dt)) hsame (htick hsame)
        ⟨rfl, rfl, hlong⟩ rfl
      exact hwrote.section rfl rfl rfl rfl rfl rfl rfl trivial
    · exact h.section rfl rfl rfl rfl rfl rfl rfl trivial
  | holding tf =>
    simp only [hpc, Option.some_inj] at hnext
    subst hnext
    exact h.section rfl rfl rfl rfl rfl rfl rfl trivial
  | homing =>
    rw [hpc] at htick
    simp only [hpc, Option.some_inj] at hnext
    subst hnext
    refine h.section rfl rfl rfl rfl rfl rfl rfl ?_
    dsimp only [afterHoming]
    split
    · rename_i hhome
      exact ⟨htick, hhome⟩
    · trivial
  | homingDone pos =>
    rw [hpc] at htick
    have hsame := hseen (by simp [writesNow, hpc])
    simp only [hpc, Option.some_inj] at hnext
    subst hnext
    exact h.wrote_untargeted _ _ hsame (htick.1 hsame) ⟨rfl, rfl, htick.2⟩ rfl

/-! ### Commands -/

/-- A command sets the state: no tick that has read before finds its state again. -/
theorem Inv.commanded (h : g.Inv) (hepoch : g'.epoch = g.epoch + 1) (hseen : g'.seen = g.seen)
    (htick : g'.tick = g.tick) (hwrites : g'.writes = g.writes)
    (hreturned : ∀ r ∈ g'.returned, r.Justified g.writes)
    (hcmd : CmdOk g'.state g'.openTarget g'.epoch g'.writes g'.cmd) : g'.Inv := by
  have hpast : g'.seen ≠ g'.epoch := by
    have hle := h.seen
    omega
  have hstill (read : GS) : g'.StillIn read := fun hsame => absurd hsame hpast
  refine ⟨hwrites ▸ h.owned, hwrites ▸ hreturned, ?_, hcmd, by have hle := h.seen; omega⟩
  have hwas := h.tick
  rw [htick]
  generalize g.tick = pc at hwas ⊢
  cases pc with
  | rest => trivial
  | sensed dt => trivial
  | holding tf => trivial
  | opening dt => exact hstill _
  | openingStall dt q target => exact ⟨hstill _, fun hsame => absurd hsame hpast, hwas.2.2⟩
  | openingDone reason => exact ⟨hstill _, hwas.2.1, fun hsame => absurd hsame hpast⟩
  | closing dt => exact hstill _
  | closingHardStop pos => exact ⟨hstill _, hwas.2⟩
  | closingContact pos vel => exact ⟨hstill _, hwas.2⟩
  | contact dt => exact hstill _
  | contactTimer dt => exact hstill _
  | homing => exact hstill _
  | homingDone pos => exact ⟨hstill _, hwas.2⟩

/-- A command goes on, or returns, and leaves the state as it is. -/
theorem Inv.goes (h : g.Inv) (hstate : g'.state = g.state) (htarget : g'.openTarget = g.openTarget)
    (hepoch : g'.epoch = g.epoch) (hseen : g'.seen = g.seen) (htick : g'.tick = g.tick)
    (hwrites : g'.writes = g.writes) (hreturned : ∀ r ∈ g'.returned, r.Justified g.writes)
    (hcmd : CmdOk g.state g.openTarget g.epoch g.writes g'.cmd) : g'.Inv := by
  refine ⟨hwrites ▸ h.owned, hwrites ▸ hreturned, ?_, ?_, by rw [hseen, hepoch]; exact h.seen⟩
  · have hwas := h.tick
    rw [htick]
    generalize g.tick = pc at hwas ⊢
    cases pc <;> simp only [TickOk, StillIn, hstate, htarget, hepoch, hseen] at hwas ⊢ <;> exact hwas
  · rw [hstate, htarget, hepoch, hwrites]
    exact hcmd

theorem Inv.justified_cons (h : g.Inv) {r : Returned} (hr : r.Justified g.writes) :
    ∀ r' ∈ r :: g.returned, r'.Justified g.writes := by
  intro r' hr'
  rcases List.mem_cons.mp hr' with rfl | hr'
  · exact hr
  · exact h.justified r' hr'

/-- The next section of a command. -/
theorem Inv.cmdNext (h : g.Inv) (hnext : g.cmdNext = some g') : g'.Inv := by
  have hcmd := h.cmd
  unfold Gripper.cmdNext at hnext
  cases hpc : g.cmd with
  | none => simp [hpc] at hnext
  | openMark target =>
    rw [hpc] at hcmd
    simp only [hpc, Option.some_inj] at hnext
    subst hnext
    exact h.goes rfl rfl rfl rfl rfl rfl h.justified hcmd
  | openWait target =>
    rw [hpc] at hcmd
    simp only [hpc] at hnext
    split at hnext <;> simp only [Option.some_inj] at hnext <;> subst hnext
    · rename_i hidle
      obtain ⟨-, hopening | hsettled⟩ := hcmd
      · cases hopening.symm.trans hidle
      · exact h.goes rfl rfl rfl rfl rfl rfl (h.justified_cons hsettled) trivial
    · exact h
  | graspClose call =>
    simp only [hpc, Option.some_inj] at hnext
    subst hnext
    exact h.commanded rfl rfl rfl rfl h.justified (.inl rfl)
  | graspWait call =>
    rw [hpc] at hcmd
    simp only [hpc] at hnext
    split at hnext
    · rename_i hholding
      have hcontacted : Contacted g.writes g.epoch := by
        rcases hcmd with hclosing | hidle | hcontacted
        · cases hclosing.symm.trans hholding
        · cases hidle.symm.trans hholding
        · exact hcontacted
      split at hnext <;> simp only [Option.some_inj] at hnext <;> subst hnext
      · exact h.goes rfl rfl rfl rfl rfl rfl h.justified hcontacted
      · exact h.goes rfl rfl rfl rfl rfl rfl (h.justified_cons hcontacted) trivial
    split at hnext <;> simp only [Option.some_inj] at hnext <;> subst hnext
    · exact h.goes rfl rfl rfl rfl rfl rfl (h.justified_cons trivial) trivial
    · exact h
  | graspRamp call tf =>
    rw [hpc] at hcmd
    simp only [hpc] at hnext
    split at hnext <;> simp only [Option.some_inj] at hnext <;> subst hnext
    · exact h.goes rfl rfl rfl rfl rfl rfl h.justified hcmd
    · exact h.goes rfl rfl rfl rfl rfl rfl (h.justified_cons hcmd) trivial
  | graspWindow call tf p0 =>
    rw [hpc] at hcmd
    simp only [hpc] at hnext
    split at hnext <;> simp only [Option.some_inj] at hnext <;> subst hnext
    · exact h.goes rfl rfl rfl rfl rfl rfl h.justified hcmd
    · exact h.goes rfl rfl rfl rfl rfl rfl (h.justified_cons hcmd) trivial
  | graspCreep call tf p0 =>
    rw [hpc] at hcmd
    simp only [hpc] at hnext
    split at hnext <;> simp only [Option.some_inj] at hnext <;> subst hnext
    · exact h.goes rfl rfl rfl rfl rfl rfl (h.justified_cons hcmd) trivial
    · exact h.goes rfl rfl rfl rfl rfl rfl h.justified hcmd
  | graspBump call tf =>
    rw [hpc] at hcmd
    simp only [hpc, Option.some_inj] at hnext
    subst hnext
    exact h.goes rfl rfl rfl rfl rfl rfl h.justified hcmd
  | releaseWait =>
    simp only [hpc] at hnext
    split at hnext <;> simp only [Option.some_inj] at hnext <;> subst hnext
    · exact h.goes rfl rfl rfl rfl rfl rfl h.justified trivial
    · exact h
  | releaseHome =>
    simp only [hpc, Option.some_inj] at hnext
    subst hnext
    exact h.commanded rfl rfl rfl rfl h.justified trivial
  | homeWait =>
    simp only [hpc] at hnext
    split at hnext <;> simp only [Option.some_inj] at hnext <;> subst hnext
    · exact h.goes rfl rfl rfl rfl rfl rfl (h.justified_cons trivial) trivial
    · exact h

/-- The time of a command is over. -/
theorem Inv.cmdTimeout (h : g.Inv) (hnext : g.cmdTimeout = some g') : g'.Inv := by
  have hcmd := h.cmd
  unfold Gripper.cmdTimeout at hnext
  split at hnext
  · simp only [Option.some_inj] at hnext
    subst hnext
    exact h.commanded rfl rfl rfl rfl (h.justified_cons trivial) trivial
  · simp only [Option.some_inj] at hnext
    subst hnext
    exact h.commanded rfl rfl rfl rfl (h.justified_cons trivial) trivial
  · rename_i call tf hpc
    rw [hpc] at hcmd
    simp only [Option.some_inj] at hnext
    subst hnext
    exact h.goes rfl rfl rfl rfl rfl rfl (h.justified_cons hcmd) trivial
  · simp only [Option.some_inj] at hnext
    subst hnext
    exact h.goes rfl rfl rfl rfl rfl rfl h.justified trivial
  · simp only [Option.some_inj] at hnext
    subst hnext
    exact h.goes rfl rfl rfl rfl rfl rfl (h.justified_cons trivial) trivial
  · cases hnext

/-! ### Runs -/

theorem Inv.new : Gripper.new.Inv :=
  ⟨by simp [Gripper.new], by simp [Gripper.new], trivial, trivial, le_rfl⟩

theorem Inv.sense (h : g.Inv) (dt : ℚ) (feedback : Option Feedback) :
    (g.sense dt feedback).Inv := by
  unfold Gripper.sense
  split
  · exact h.section rfl rfl rfl rfl rfl rfl rfl trivial
  split <;> exact h.section rfl rfl rfl rfl rfl rfl rfl trivial

/-- **The step lemma.** -/
theorem Inv.step {a : Act} (h : g.Inv) (hkeeps : g.overwrites a = false)
    (hnext : g.step a = some g') : g'.Inv := by
  cases a with
  | sense dt feedback =>
    simp only [Gripper.step] at hnext
    split at hnext <;> cases hnext
    exact h.sense dt feedback
  | tick => exact h.tickNext hkeeps hnext
  | cmd => exact h.cmdNext hnext
  | timeout => exact h.cmdTimeout hnext
  | openGripper distanceM =>
    simp only [Gripper.step] at hnext
    split at hnext <;> cases hnext
    exact h.commanded rfl rfl rfl rfl h.justified ⟨rfl, .inl rfl⟩
  | closeGripper =>
    simp only [Gripper.step] at hnext
    split at hnext <;> cases hnext
    rename_i hpc
    refine h.commanded rfl rfl rfl rfl h.justified ?_
    show CmdOk _ _ _ _ g.cmd
    rw [hpc]
    trivial
  | grasp force adaptive adaptiveStart adaptiveStep adaptiveCreepRad =>
    simp only [Gripper.step] at hnext
    split at hnext <;> cases hnext
    exact h.goes rfl rfl rfl rfl rfl rfl h.justified trivial
  | releaseGripper =>
    simp only [Gripper.step] at hnext
    split at hnext <;> cases hnext
    exact h.commanded rfl rfl rfl rfl h.justified trivial

/-- **A command is not lost.**  In every run in which no tick writes over what a command has
set since the tick has read the state: every state was left for a reason found in it, with
the target of the command that has set it, and what the commands have returned is true. -/
theorem command_kept (as : List Act) (g : Gripper) (hrun : machine.run as = some g)
    (hkeeps : machine.Guarded (fun g a => g.overwrites a = false) machine.init as) :
    (∀ w ∈ g.writes, w.Owned) ∧ ∀ r ∈ g.returned, r.Justified g.writes := by
  have hinv : g.Inv := machine.invariant_of_guarded (fun g a => g.overwrites a = false) Inv.new
    (fun _ _ _ h hok hstep => h.step hok hstep) hkeeps hrun
  exact ⟨hinv.owned, hinv.justified⟩

/-- The gripper is opened, and the jaw arrives. -/
def openedRun : List Act :=
  [.openGripper (1 / 10), .cmd, .sense 2 (some ⟨-5763 / 1000, 0, 0⟩), .tick, .tick, .tick, .cmd]

theorem command_kept_openedRun :
    ∃ g, machine.run openedRun = some g ∧ g.returned.length = 1 ∧
      ∀ r ∈ g.returned, r.Justified g.writes :=
  ⟨(machine.run openedRun).get (by decide +kernel), (Option.some_get _).symm, by decide +kernel,
    (command_kept openedRun _ (Option.some_get _).symm (by decide +kernel)).2⟩

/-- A tick has found the jaw at its hard stop, and the gripper is opened before it writes. -/
def lostRun : List Act :=
  [.closeGripper, .sense (1 / 2) (some ⟨0, 0, 0⟩), .tick, .tick, .openGripper (1 / 10), .tick, .cmd,
    .cmd]

/-- **An open is lost**: it returns `True`, and the jaw has not moved. -/
theorem lostRun_returns_true :
    ∃ g, machine.run lostRun = some g ∧ g.returned = [.opened 2 (-5763 / 1000) true] ∧
      g.pos = 0 ∧ g.writes.map (fun w => (w.read, w.found)) = [(.closing, .opening)] :=
  ⟨(machine.run lostRun).get (by decide +kernel), (Option.some_get _).symm, by decide +kernel,
    by decide +kernel, by decide +kernel⟩

end Gripper
end OpenVoiceStream
