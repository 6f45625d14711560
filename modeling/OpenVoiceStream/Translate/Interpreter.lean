import OpenVoiceStream.Base.Machine
import OpenVoiceStream.Translate.Committer

/-!
# Simultaneous interpretation

`SimulInterpretApp` translates what its committer commits. The dispatcher waits for
`on_user_partial`; a final starts a turn task for `on_user_utterance`, and a task that has not
finished is cancelled by it. With overlap each segment is spoken as it comes, otherwise the
translations of an utterance are gathered in one text and spoken on its final.

At every await the other task can move. The events of the model are those that reach the two
hooks, and a stop intent that only cancels the task; the echo filter is off, and what the app
sends succeeds.

## Main definitions

* `Interpreter`, `Config` — the app and what it remembers.
* `step`, `machine` — the steps of the dispatcher and of the turn task.
* `Spoken` — what has been spoken is the translation of what was committed.
* `Keeps` — the steps that lose, repeat and exchange nothing.

## Main results

* `Flow.step` — such a step keeps track of every translation.
* `spoken_of_keeps` — runs of such steps.
-/

namespace OpenVoiceStream.Translate

/-- The app, without its echo filter. -/
structure Interpreter (L : Type) where
  committer : Committer
  monotonic : committer.strategy = .monotonic
  /-- `overlap_mode == "on"`. -/
  overlap : Bool
  /-- The characters `strip` removes. -/
  isSpace : Char → Bool
  /-- What the translator answers for a text in a detected language. -/
  translate : Text → L → Text

/-- The awaits of a task: the translation, with what it will give, `send_text`, `flush_tts` and
the broadcast. -/
inductive Stage
  | translating (translated : Text)
  | sending
  | flushing
  | broadcasting
  deriving DecidableEq

/-- The turn task. -/
inductive Turn (L : Type)
  | created (text : Text) (language : L)
  | running (stage : Stage)
  | done
  deriving DecidableEq

/-- The translation of a committed segment, and how many finals had been dispatched when its
utterance began. -/
structure Delta where
  text : Text
  utterance : ℕ
  deriving DecidableEq

/-- The app. The last four fields are a record of the run: what has been committed, whether the
turn task committed before the dispatcher, the number of finals, and the texts handed to
`send_text`. -/
structure Config (L : Type) where
  committer : State
  pendingTranslation : Text
  dispatcher : Option Stage
  turn : Turn L
  committed : List Delta
  turnFirst : Bool
  finals : ℕ
  sent : List Text

/-- What happens: an event for the dispatcher, a stop intent, or an await of one of the tasks is
over. -/
inductive Act (L : Type)
  | asrPartial (text : Text) (language : L)
  | asrFinal (text : Text) (language : L)
  | stopIntent
  | dispatcher
  | turn

variable {L : Type} (app : Interpreter L)

/-- `not text.strip()`. -/
def Interpreter.blank (text : Text) : Bool := text.all app.isSpace

/-- The await behind an await, if there is one. -/
def Stage.next : Stage → Option Stage
  | .translating _ => none
  | .sending => some .flushing
  | .flushing => some .broadcasting
  | .broadcasting => none

/-- The body of the loops: a translation is spoken at once or kept. -/
def deliver (c : Config L) (translated : Text) : Config L × Option Stage :=
  if app.overlap then
    if app.blank translated then (c, none)
    else ({ c with sent := c.sent ++ [translated] }, some .sending)
  else ({ c with pendingTranslation := c.pendingTranslation ++ translated }, none)

/-- `on_user_partial` up to its first await. -/
def onUserPartial (c : Config L) (text : Text) (language : L) : Config L :=
  let (events, committer) := pushPartial app.committer c.committer text
  let c := { c with committer := committer }
  match events.head? with
  | none => c
  | some ev =>
    if app.blank ev.sourceText then
      let (c, stage) := deliver app { c with committed := c.committed ++ [⟨[], c.finals⟩] } []
      { c with dispatcher := stage }
    else
      let translated := app.translate ev.sourceText language
      { c with
        committed := c.committed ++ [⟨translated, c.finals⟩]
        turnFirst := true
        dispatcher := some (.translating translated) }

/-- The end of `on_user_utterance`: what has been kept is spoken. -/
def flushPending (c : Config L) : Config L :=
  if !app.overlap && !app.blank c.pendingTranslation then
    { c with sent := c.sent ++ [c.pendingTranslation], turn := .running .sending }
  else { c with pendingTranslation := [], turn := .done }

/-- `on_user_utterance` once the segment of the final has been translated. -/
def onTranslated (c : Config L) (translated : Text) : Config L :=
  match deliver app c translated with
  | (c, some stage) => { c with turn := .running stage }
  | (c, none) => flushPending app c

/-- `on_user_utterance` up to its first await. -/
def onUserUtterance (c : Config L) (text : Text) (language : L) : Config L :=
  let (events, committer) := finalize app.committer c.committer text
  let c := { c with committer := committer }
  match events.head? with
  | none => flushPending app c
  | some ev =>
    if app.blank ev.sourceText then
      onTranslated app { c with committed := c.committed ++ [⟨[], c.finals - 1⟩] } []
    else
      let translated := app.translate ev.sourceText language
      { c with
        committed := c.committed ++ [⟨translated, c.finals - 1⟩]
        turnFirst := false
        turn := .running (.translating translated) }

/-- A step. -/
def step (c : Config L) : Act L → Option (Config L)
  | .asrPartial text language =>
    if c.dispatcher = none then some (onUserPartial app c text language) else none
  | .asrFinal text language =>
    -- a task that has not finished is cancelled, at the await where it is
    if c.dispatcher = none then
      some { c with turn := .created text language, finals := c.finals + 1 }
    else none
  | .stopIntent => if c.dispatcher = none then some { c with turn := .done } else none
  | .dispatcher =>
    match c.dispatcher with
    | none => none
    | some (.translating translated) =>
      let (c, stage) := deliver app c translated
      some { c with dispatcher := stage }
    | some stage => some { c with dispatcher := stage.next }
  | .turn =>
    match c.turn with
    | .created text language => some (onUserUtterance app c text language)
    | .running (.translating translated) => some (onTranslated app c translated)
    | .running stage =>
      match stage.next with
      | some stage => some { c with turn := .running stage }
      | none => some { c with pendingTranslation := [], turn := .done }
    | .done => none

/-- The app from its start. -/
def machine : Machine (Config L) (Act L) where
  init :=
    { committer := .idle 0 0, pendingTranslation := [], dispatcher := none, turn := .done
      committed := [], turnFirst := false, finals := 0, sent := [] }
  step := step app

/-! ### What is asked of a run -/

/-- What the deltas say. -/
def saying (deltas : List Delta) : Text := (deltas.map (·.text)).flatten

/-- No task is at work. -/
def Config.Idle (c : Config L) : Prop := c.dispatcher = none ∧ c.turn = .done

/-- The texts that have been handed over are the translations of what was committed, each once and
in order, and once no task is at work only those of the utterance that has no final yet are
missing. -/
def Spoken (c : Config L) : Prop :=
  ∃ spoken rest, c.committed = spoken ++ rest ∧ c.sent.flatten = saying spoken ∧
    (c.Idle → ∀ delta ∈ rest, delta.text ≠ [] → delta.utterance = c.finals)

/-- The translation that a task waits for. -/
def Stage.text : Option Stage → Text
  | some (.translating translated) => translated
  | _ => []

/-- The await the turn task is in. -/
def Turn.stage : Turn L → Option Stage
  | .running stage => some stage
  | _ => none

/-- The turn task has handed over what was kept, and has not cleared it yet. -/
def Config.speaking (c : Config L) : Bool :=
  match c.turn with
  | .running (.translating _) => false
  | .running _ => true
  | _ => false

/-- What is kept is spoken or there is none. -/
def Flushes (pending : Text) : Prop := app.overlap = false → app.blank pending = true → pending = []

/-- A translation can be handed over or kept now: there is none before it, and what is kept is not
about to be cleared. -/
def Delivers (translated before : Text) (speaking : Bool) : Prop :=
  translated = [] ∨ before = [] ∧
    if app.overlap then app.blank translated = false else speaking = false

/-- Nothing of the turn task is lost or handed over again when it is cancelled. -/
def Cancels (c : Config L) : Prop :=
  Stage.text c.turn.stage = [] ∧ (app.overlap = false → c.speaking = false)

/-- Steps that lose, repeat and exchange nothing. -/
def Keeps (c : Config L) : Act L → Prop
  | .asrPartial _ _ => True
  | .asrFinal _ _ => Cancels app c
  | .stopIntent => c.turn ≠ .done → Cancels app c ∧ c.pendingTranslation = []
  | .dispatcher =>
    Delivers app (Stage.text c.dispatcher) (if c.turnFirst then Stage.text c.turn.stage else [])
      c.speaking
  | .turn =>
    match c.turn with
    | .created text _ =>
      ((finalize app.committer c.committer text).1.all fun ev => app.blank ev.sourceText) = true →
        Flushes app c.pendingTranslation
    | .running (.translating translated) =>
      Delivers app translated (if c.turnFirst then [] else Stage.text c.dispatcher) false ∧
        Flushes app (c.pendingTranslation ++ translated)
    | _ => True

instance (pending : Text) : Decidable (Flushes app pending) :=
  inferInstanceAs (Decidable (_ → _ → _))

instance (translated before : Text) (speaking : Bool) :
    Decidable (Delivers app translated before speaking) :=
  inferInstanceAs (Decidable (_ ∨ _ ∧ ite _ _ _))

instance (c : Config L) : Decidable (Cancels app c) := inferInstanceAs (Decidable (_ ∧ (_ → _)))

instance [DecidableEq L] (c : Config L) (act : Act L) : Decidable (Keeps app c act) :=
  match act with
  | .asrPartial _ _ => isTrue trivial
  | .asrFinal _ _ => inferInstanceAs (Decidable (Cancels app c))
  | .stopIntent => inferInstanceAs (Decidable (_ → Cancels app c ∧ _))
  | .dispatcher => inferInstanceAs (Decidable (Delivers app _ _ _))
  | .turn =>
    match h : c.turn with
    | .created _ _ => by
      rw [Keeps, h]
      infer_instance
    | .running (.translating _) => by
      rw [Keeps, h]
      infer_instance
    | .running .sending => isTrue (by rw [Keeps, h]; trivial)
    | .running .flushing => isTrue (by rw [Keeps, h]; trivial)
    | .running .broadcasting => isTrue (by rw [Keeps, h]; trivial)
    | .done => isTrue (by rw [Keeps, h]; trivial)

/-! ### Accounts -/

/-- A translation that is waited for. -/
def inFlight (text : Text) (utterance : ℕ) : List Delta :=
  if text = [] then [] else [⟨text, utterance⟩]

/-- The translations that are waited for, in the order of their segments. -/
def Config.flying (c : Config L) : List Delta :=
  let turn := inFlight (Stage.text c.turn.stage) (c.finals - 1)
  let dispatcher := inFlight (Stage.text c.dispatcher) c.finals
  if c.turnFirst then turn ++ dispatcher else dispatcher ++ turn

/-- The translations that say something. -/
def Config.said (c : Config L) : List Delta := c.committed.filter fun delta => delta.text ≠ []

/-- Every translation has been handed over, is held as this text or is waited for. When `fresh`
holds what is held belongs to the utterance that has no final yet. -/
def Account (c : Config L) (flying : List Delta) (held : Text) (fresh : Prop) : Prop :=
  ∃ spoken kept, c.said = spoken ++ kept ++ flying ∧ c.sent.flatten = saying spoken ∧
    saying kept = held ∧ (fresh → ∀ delta ∈ kept, delta.utterance = c.finals)

/-- The accounts of the app. -/
structure Flow (c : Config L) : Prop where
  account : Account c c.flying
    (if c.speaking = true ∧ app.overlap = false then [] else c.pendingTranslation)
    (c.turn = .done ∨ c.speaking = true)
  overlap (h : app.overlap = true) : c.pendingTranslation = []

@[simp] theorem saying_nil : saying [] = [] := rfl

@[simp] theorem saying_append (xs ys : List Delta) :
    saying (xs ++ ys) = saying xs ++ saying ys := by
  rw [saying, List.map_append, List.flatten_append]
  rfl

@[simp] theorem inFlight_nil (utterance : ℕ) : inFlight [] utterance = [] := rfl

@[simp] theorem saying_inFlight (text : Text) (utterance : ℕ) :
    saying (inFlight text utterance) = text := by
  rw [inFlight]
  split
  · next h => rw [h, saying_nil]
  · simp [saying]

/-- Translations that say nothing do not count. -/
theorem saying_filter (deltas : List Delta) :
    saying (deltas.filter fun delta => delta.text ≠ []) = saying deltas := by
  induction deltas with
  | nil => rfl
  | cons delta rest ih =>
    rw [List.filter_cons]
    split
    · rw [saying, saying, List.map_cons, List.map_cons, List.flatten_cons, List.flatten_cons]
      exact congrArg _ ih
    · next hempty =>
      have hnil : delta.text = [] := by simpa using hempty
      rw [ih, saying, saying, List.map_cons, List.flatten_cons, hnil, List.nil_append]

/-- A segment that is committed is waited for. -/
theorem said_commit (c : Config L) (text : Text) (utterance : ℕ) :
    (c.committed ++ [(⟨text, utterance⟩ : Delta)]).filter (fun delta => delta.text ≠ []) =
      c.said ++ inFlight text utterance := by
  rw [List.filter_append, Config.said, inFlight]
  by_cases h : text = [] <;> simp [h]

variable {app} {c : Config L} {flying : List Delta} {held : Text} {fresh : Prop}

theorem Account.imp {fresh' : Prop} (h : Account c flying held fresh) (himp : fresh' → fresh) :
    Account c flying held fresh' := by
  obtain ⟨spoken, kept, hsaid, hsent, hheld, hfresh⟩ := h
  exact ⟨spoken, kept, hsaid, hsent, hheld, fun hf => hfresh (himp hf)⟩

/-- What is kept says something, so it is nothing where it says nothing. -/
theorem Account.of_nil (h : Account c flying [] fresh) (fresh' : Prop) :
    Account c flying [] fresh' := by
  obtain ⟨spoken, kept, hsaid, hsent, hheld, -⟩ := h
  have hkept : kept = [] := by
    rw [List.eq_nil_iff_forall_not_mem]
    intro delta hdelta
    have hmem : delta ∈ c.said := by
      rw [hsaid]
      exact List.mem_append_left _ (List.mem_append_right _ hdelta)
    have hne : delta.text ≠ [] := by simpa using (List.mem_filter.mp hmem).2
    exact hne (List.flatten_eq_nil_iff.mp hheld _ (List.mem_map_of_mem hdelta))
  refine ⟨spoken, kept, hsaid, hsent, hheld, fun _ delta hdelta => ?_⟩
  rw [hkept] at hdelta
  cases hdelta

/-- Nothing is done with an empty translation. -/
@[simp] theorem deliver_nil : deliver app c [] = (c, none) := by
  rw [deliver]
  split
  · rfl
  · rw [List.append_nil]

variable (app c) in
/-- What `deliver` changes. -/
theorem deliver_eq (translated : Text) : ∃ pending sent stage,
    deliver app c translated = ({ c with pendingTranslation := pending, sent := sent }, stage) ∧
      Stage.text stage = [] ∧ (app.overlap = true → pending = c.pendingTranslation) := by
  rw [deliver]
  split
  · split
    · exact ⟨_, _, _, rfl, rfl, fun _ => rfl⟩
    · exact ⟨_, _, _, rfl, rfl, fun _ => rfl⟩
  · next hmode => exact ⟨_, _, _, rfl, rfl, fun h => absurd h hmode⟩

/-- A translation that is handed over or kept is waited for no longer. -/
theorem Account.deliver {translated : Text} {utterance : ℕ} {rest : List Delta}
    (h : Account c (inFlight translated utterance ++ rest) c.pendingTranslation fresh)
    (hoverlap : app.overlap = true → c.pendingTranslation = [])
    (hspoken : app.overlap = true → translated ≠ [] → app.blank translated = false)
    (hfresh : fresh → utterance = c.finals) :
    Account (deliver app c translated).1 rest (deliver app c translated).1.pendingTranslation
      fresh := by
  by_cases hnil : translated = []
  · subst hnil
    simpa using h
  rw [Translate.deliver]
  by_cases hmode : app.overlap = true
  · rw [if_pos hmode, if_neg (by rw [hspoken hmode hnil]; decide)]
    dsimp only
    rw [hoverlap hmode] at h ⊢
    obtain ⟨spoken, kept, hsaid, hsent, hheld, -⟩ := h
    refine ⟨spoken ++ kept ++ inFlight translated utterance, [], ?_, ?_, rfl, ?_⟩
    · rw [List.append_nil, List.append_assoc _ _ rest]
      exact hsaid
    · rw [List.flatten_append, hsent, saying_append, saying_append, hheld, saying_inFlight]
      simp
    · exact fun _ _ h => nomatch h
  · rw [if_neg hmode]
    obtain ⟨spoken, kept, hsaid, hsent, hheld, hkept⟩ := h
    refine ⟨spoken, kept ++ inFlight translated utterance, ?_, hsent, ?_, ?_⟩
    · rw [← List.append_assoc, List.append_assoc _ _ rest]
      exact hsaid
    · rw [saying_append, hheld, saying_inFlight]
    · intro hf delta hdelta
      rcases List.mem_append.mp hdelta with hdelta | hdelta
      · exact hkept hf delta hdelta
      · rw [inFlight, if_neg hnil, List.mem_singleton] at hdelta
        rw [hdelta]
        exact hfresh hf

/-- The dispatcher alone waits. -/
theorem flying_of_turn (h : Stage.text c.turn.stage = []) :
    c.flying = inFlight (Stage.text c.dispatcher) c.finals := by
  rw [Config.flying, h]
  simp

/-- The turn task alone waits. -/
theorem flying_of_dispatcher (h : Stage.text c.dispatcher = []) :
    c.flying = inFlight (Stage.text c.turn.stage) (c.finals - 1) := by
  rw [Config.flying, h]
  simp

/-! ### One step -/

/-- The end of a turn, where what is kept is spoken or there is none. -/
theorem Account.flushPending (h : Account c (inFlight (Stage.text c.dispatcher) c.finals)
      c.pendingTranslation False)
    (hoverlap : app.overlap = true → c.pendingTranslation = [])
    (hflushes : Flushes app c.pendingTranslation) : Flow app (flushPending app c) := by
  rw [Translate.flushPending]
  split
  · next hspeaks =>
    rw [Bool.and_eq_true, Bool.not_eq_true', Bool.not_eq_true'] at hspeaks
    obtain ⟨spoken, kept, hsaid, hsent, hheld, -⟩ := h
    refine ⟨⟨spoken ++ kept, [], ?_, ?_, ?_, fun _ _ h => nomatch h⟩, ?_⟩
    · rw [List.append_nil, flying_of_turn rfl]
      exact hsaid
    · rw [saying_append, ← hsent, hheld]
      simp
    · rw [if_pos ⟨rfl, hspeaks.1⟩, saying_nil]
    · intro htrue
      rw [hspeaks.1] at htrue
      cases htrue
  · next hnot =>
    have hnone : c.pendingTranslation = [] := by
      cases hmode : app.overlap with
      | true => exact hoverlap hmode
      | false =>
        refine hflushes hmode ?_
        simpa [hmode] using hnot
    rw [hnone] at h
    refine ⟨?_, fun _ => rfl⟩
    rw [flying_of_turn rfl, ite_self]
    exact h.of_nil _

/-- A turn goes on once its segment has been translated. -/
theorem Account.onTranslated {translated : Text}
    (h : Account c (inFlight translated (c.finals - 1) ++
      inFlight (Stage.text c.dispatcher) c.finals) c.pendingTranslation False)
    (hoverlap : app.overlap = true → c.pendingTranslation = [])
    (hspoken : app.overlap = true → translated ≠ [] → app.blank translated = false)
    (hflushes : Flushes app (c.pendingTranslation ++ translated)) :
    Flow app (onTranslated app c translated) := by
  have hafter := h.deliver hoverlap hspoken False.elim
  rw [Translate.onTranslated]
  cases hmode : app.overlap with
  | true =>
    rw [Translate.deliver, if_pos hmode] at hafter ⊢
    by_cases hblank : app.blank translated = true
    · rw [if_pos hblank] at hafter ⊢
      exact hafter.flushPending hoverlap (fun hno => absurd (hmode.symm.trans hno) (by decide))
    · rw [if_neg hblank] at hafter ⊢
      dsimp only at hafter ⊢
      rw [hoverlap hmode] at hafter
      refine ⟨?_, fun _ => hoverlap hmode⟩
      rw [flying_of_turn rfl]
      dsimp only
      rw [hoverlap hmode, ite_self]
      exact hafter.of_nil _
  | false =>
    rw [Translate.deliver, if_neg (by rw [hmode]; decide)] at hafter ⊢
    exact hafter.flushPending (fun hyes => absurd (hmode.symm.trans hyes) (by decide)) hflushes

/-- The committer returns one segment at most, so the loops run once at most. -/
theorem length_events_le (committer : Committer) (s : State) (text : Text) :
    (pushPartial committer s text).1.length ≤ 1 ∧ (finalize committer s text).1.length ≤ 1 := by
  constructor
  · rw [pushPartial]
    dsimp only
    split
    · exact Nat.le_refl 1
    · split
      · exact Nat.le_refl 1
      · exact Nat.zero_le 1
  · rw [finalize]
    split
    · exact Nat.le_refl 1
    · exact Nat.zero_le 1

/-- An account of the app before a segment is committed is one of it afterwards. -/
theorem Account.commit (h : Account c flying held fresh) (committer : State) (text : Text)
    (utterance : ℕ) :
    Account { c with committer := committer, committed := c.committed ++ [⟨text, utterance⟩] }
      (flying ++ inFlight text utterance) held fresh := by
  obtain ⟨spoken, kept, hsaid, hsent, hheld, hfresh⟩ := h
  refine ⟨spoken, kept, ?_, hsent, hheld, hfresh⟩
  rw [Config.said, said_commit, hsaid, List.append_assoc]

/-- A partial. -/
theorem Flow.onUserPartial (h : Flow app c) (hidle : c.dispatcher = none) (text : Text)
    (language : L) : Flow app (onUserPartial app c text language) := by
  have hflying : c.flying = inFlight (Stage.text c.turn.stage) (c.finals - 1) :=
    flying_of_dispatcher (by rw [hidle]; rfl)
  have haccount := h.account
  rw [hflying] at haccount
  rw [Translate.onUserPartial]
  dsimp only
  split
  · exact ⟨h.account, h.overlap⟩
  · next ev hev =>
    split
    · rw [deliver_nil]
      have hcommit := haccount.commit (pushPartial app.committer c.committer text).2 [] c.finals
      rw [inFlight_nil, List.append_nil] at hcommit
      refine ⟨?_, h.overlap⟩
      rw [flying_of_dispatcher rfl]
      exact hcommit
    · have hcommit := haccount.commit (pushPartial app.committer c.committer text).2
        (app.translate ev.sourceText language) c.finals
      refine ⟨?_, h.overlap⟩
      exact hcommit

/-- A turn begins. -/
theorem Flow.onUserUtterance (h : Flow app c) {text : Text} {language : L}
    (hturn : c.turn = .created text language)
    (hflushes : ((finalize app.committer c.committer text).1.all
      fun ev => app.blank ev.sourceText) = true → Flushes app c.pendingTranslation) :
    Flow app (onUserUtterance app c text language) := by
  have hflying : c.flying = inFlight (Stage.text c.dispatcher) c.finals :=
    flying_of_turn (by rw [hturn]; rfl)
  have hspeaking : c.speaking = false := by rw [Config.speaking, hturn]
  have haccount : Account c (inFlight (Stage.text c.dispatcher) c.finals) c.pendingTranslation
      False := by
    obtain ⟨spoken, kept, hsaid, hsent, hheld, -⟩ := h.account
    rw [hflying] at hsaid
    rw [hspeaking, if_neg (by simp)] at hheld
    exact ⟨spoken, kept, hsaid, hsent, hheld, False.elim⟩
  have hlength := (length_events_le app.committer c.committer text).2
  rw [Translate.onUserUtterance]
  dsimp only
  cases hevents : (finalize app.committer c.committer text).1 with
  | nil =>
    exact Account.flushPending (c := { c with committer := _ }) haccount h.overlap
      (hflushes (by rw [hevents]; rfl))
  | cons ev rest =>
    have hrest : rest = [] := by
      rw [hevents, List.length_cons] at hlength
      exact List.length_eq_zero_iff.mp (by omega)
    rw [hrest] at hevents
    dsimp only [List.head?]
    split
    · next hblank =>
      have hflush := hflushes (by rw [hevents]; simpa using hblank)
      have hcommit := haccount.commit (finalize app.committer c.committer text).2 []
        (c.finals - 1)
      rw [inFlight_nil, List.append_nil] at hcommit
      refine Account.onTranslated hcommit h.overlap (fun _ hne => absurd rfl hne) ?_
      rw [List.append_nil]
      exact hflush
    · have hcommit := haccount.commit (finalize app.committer c.committer text).2
        (app.translate ev.sourceText language) (c.finals - 1)
      refine ⟨?_, h.overlap⟩
      refine hcommit.imp ?_
      rintro (hdone | hspeaks)
      · cases hdone
      · cases hspeaks

/-- A turn task that is cancelled leaves nothing behind it. -/
theorem Flow.cancel (h : Flow app c) (hidle : c.dispatcher = none) (hcancels : Cancels app c) :
    Account c [] c.pendingTranslation False := by
  obtain ⟨htext, hspeaking⟩ := hcancels
  have hnot : ¬ (c.speaking = true ∧ app.overlap = false) := by
    rintro ⟨hspeaks, hmode⟩
    rw [hspeaking hmode] at hspeaks
    cases hspeaks
  have haccount := h.account
  rw [flying_of_turn htext, hidle, if_neg hnot] at haccount
  exact haccount.imp False.elim

/-- An await of the dispatcher is over. -/
theorem Flow.dispatcher (h : Flow app c) {translated : Text}
    (hstage : c.dispatcher = some (.translating translated))
    (hdelivers : Delivers app translated (if c.turnFirst then Stage.text c.turn.stage else [])
      c.speaking) :
    Flow app { (deliver app c translated).1 with dispatcher := (deliver app c translated).2 } := by
  have haccount := h.account
  have htext : Stage.text c.dispatcher = translated := by rw [hstage]; rfl
  rcases hdelivers with rfl | ⟨hbefore, hmode⟩
  · rw [deliver_nil]
    rw [flying_of_dispatcher htext] at haccount
    refine ⟨?_, h.overlap⟩
    rw [flying_of_dispatcher rfl]
    exact haccount
  · have hflying : c.flying = inFlight translated c.finals ++
        inFlight (Stage.text c.turn.stage) (c.finals - 1) := by
      rw [Config.flying, htext]
      split at hbefore <;> simp_all
    have hnot : ¬ (c.speaking = true ∧ app.overlap = false) := by
      rintro ⟨hspeaks, hoff⟩
      rw [if_neg (by rw [hoff]; decide), hspeaks] at hmode
      cases hmode
    have hspoken : app.overlap = true → translated ≠ [] → app.blank translated = false := by
      intro hon _
      rwa [if_pos hon] at hmode
    rw [hflying, if_neg hnot] at haccount
    have hafter := haccount.deliver h.overlap hspoken fun _ => rfl
    obtain ⟨pending, sent, stage, heq, hstage', hpending⟩ :=
      deliver_eq app c translated
    rw [heq] at hafter ⊢
    refine ⟨?_, fun hon => (hpending hon).trans (h.overlap hon)⟩
    rw [flying_of_dispatcher hstage']
    exact (if_neg hnot).symm ▸ hafter

/-- An await of the turn task is over. -/
theorem Flow.turn (h : Flow app c) {translated : Text}
    (hturn : c.turn = .running (.translating translated))
    (hdelivers : Delivers app translated
      (if c.turnFirst then [] else Stage.text c.dispatcher) false)
    (hflushes : Flushes app (c.pendingTranslation ++ translated)) :
    Flow app (onTranslated app c translated) := by
  have hspeaking : c.speaking = false := by rw [Config.speaking, hturn]
  have hstage : Stage.text c.turn.stage = translated := by rw [hturn]; rfl
  refine Account.onTranslated ?_ h.overlap ?_ hflushes
  · have hflying : c.flying = inFlight translated (c.finals - 1) ++
        inFlight (Stage.text c.dispatcher) c.finals := by
      rw [Config.flying, hstage]
      rcases hdelivers with rfl | ⟨hbefore, -⟩
      · simp
      · split at hbefore <;> simp_all
    have haccount := h.account
    rw [hspeaking, if_neg (by simp), hflying] at haccount
    exact haccount.imp False.elim
  · intro hmode hne
    have hblank := (hdelivers.resolve_left hne).2
    rwa [if_pos hmode] at hblank

/-- **One step** that loses, repeats and exchanges nothing. -/
theorem Flow.step (h : Flow app c) {act : Act L} {c' : Config L} (hkeeps : Keeps app c act)
    (hstep : step app c act = some c') : Flow app c' := by
  cases act with
  | asrPartial text language =>
    rw [Translate.step] at hstep
    split at hstep
    · next hidle =>
      cases hstep
      exact h.onUserPartial hidle text language
    · cases hstep
  | asrFinal text language =>
    rw [Translate.step] at hstep
    split at hstep
    · next hidle =>
      cases hstep
      have haccount := h.cancel hidle hkeeps
      refine ⟨?_, h.overlap⟩
      obtain ⟨spoken, kept, hsaid, hsent, hheld, -⟩ := haccount
      refine ⟨spoken, kept, ?_, hsent, ?_, ?_⟩
      · rw [flying_of_turn rfl, hidle]
        exact hsaid
      · rw [hheld, if_neg (by simp [Config.speaking])]
      · rintro (hdone | hspeaks)
        · cases hdone
        · cases hspeaks
    · cases hstep
  | stopIntent =>
    rw [Translate.step] at hstep
    split at hstep
    · next hidle =>
      cases hstep
      by_cases hdone : c.turn = .done
      · rw [← hdone]
        exact h
      · obtain ⟨hcancels, hnone⟩ := hkeeps hdone
        have haccount := h.cancel hidle hcancels
        rw [hnone] at haccount
        refine ⟨?_, h.overlap⟩
        rw [flying_of_turn rfl, hidle, hnone, ite_self]
        exact haccount.of_nil _
    · cases hstep
  | dispatcher =>
    rw [Translate.step] at hstep
    split at hstep
    · cases hstep
    · next translated hstage =>
      cases hstep
      rw [Keeps, hstage] at hkeeps
      exact h.dispatcher hstage hkeeps
    · next stage hnot hstage =>
      cases hstep
      have hnext : Stage.text stage.next = [] := by cases stage <;> rfl
      have htext : Stage.text c.dispatcher = [] := by
        rw [hstage]
        cases stage with
        | translating translated => exact (hnot translated rfl).elim
        | _ => rfl
      have haccount := h.account
      rw [flying_of_dispatcher htext] at haccount
      refine ⟨?_, h.overlap⟩
      rw [flying_of_dispatcher hnext]
      exact haccount
  | turn =>
    rw [Translate.step] at hstep
    rw [Keeps] at hkeeps
    split at hstep
    · next text language hturn =>
      cases hstep
      rw [hturn] at hkeeps
      exact h.onUserUtterance hturn hkeeps
    · next translated hturn =>
      cases hstep
      rw [hturn] at hkeeps
      exact h.turn hturn hkeeps.1 hkeeps.2
    · next stage hnot hturn =>
      have hspeaking : c.speaking = true ∧ Stage.text c.turn.stage = [] := by
        rw [Config.speaking, hturn]
        cases stage with
        | translating translated => exact (hnot translated rfl).elim
        | _ => exact ⟨rfl, rfl⟩
      have haccount := h.account
      rw [flying_of_turn hspeaking.2, hspeaking.1] at haccount
      cases stage with
      | translating translated => exact (hnot translated rfl).elim
      | sending =>
        cases hstep
        refine ⟨?_, h.overlap⟩
        rw [flying_of_turn rfl]
        exact haccount.imp fun _ => .inr rfl
      | flushing =>
        cases hstep
        refine ⟨?_, h.overlap⟩
        rw [flying_of_turn rfl]
        exact haccount.imp fun _ => .inr rfl
      | broadcasting =>
        cases hstep
        -- what is cleared has been handed over
        have hheld : (if true = true ∧ app.overlap = false then [] else c.pendingTranslation) =
            [] := by
          cases hmode : app.overlap with
          | true => exact h.overlap hmode
          | false => rfl
        rw [hheld] at haccount
        refine ⟨?_, fun _ => rfl⟩
        rw [flying_of_turn rfl, ite_self]
        exact haccount.of_nil _
    · cases hstep

/-! ### Every run -/

/-- The accounts say what has been spoken. -/
theorem Flow.spoken (h : Flow app c) : Spoken c := by
  obtain ⟨spoken, kept, hsaid, hsent, hheld, hfresh⟩ := h.account
  rw [List.append_assoc, Config.said, List.filter_eq_append_iff] at hsaid
  obtain ⟨before, after, hcommitted, hbefore, hafter⟩ := hsaid
  refine ⟨before, after, hcommitted, ?_, ?_⟩
  · rw [hsent, ← hbefore, saying_filter]
  · rintro ⟨hidle, hdone⟩ delta hdelta hne
    have hflying : c.flying = [] := by
      rw [flying_of_turn (by rw [hdone]; rfl), hidle]
      rfl
    rw [hflying, List.append_nil] at hafter
    refine hfresh (.inl hdone) delta ?_
    rw [← hafter]
    exact List.mem_filter.mpr ⟨hdelta, by simpa using hne⟩

/-- **Every clause is spoken once and in order** in every run whose steps lose, repeat and
exchange nothing. -/
theorem spoken_of_keeps (app : Interpreter L) {acts : List (Act L)} {c : Config L}
    (hrun : (machine app).run acts = some c)
    (hkeeps : (machine app).Guarded (Keeps app) (machine app).init acts) : Spoken c := by
  have hinit : Flow app (machine app).init :=
    ⟨⟨[], [], rfl, rfl, rfl, fun _ _ h => nomatch h⟩, fun _ => rfl⟩
  exact ((machine app).invariant_of_guarded (Keeps app) hinit
    (fun _ _ _ h hkeeps hstep => h.step hkeeps hstep) hkeeps hrun).spoken

/-- An app without overlap that repeats what it hears. -/
def echoApp : Interpreter Unit :=
  { committer := { Committer.default with strategy := .monotonic }, monotonic := rfl
    overlap := false, isSpace := fun char => char = ' ', translate := fun text _ => text }

/-- A final that comes while the one before it is being translated cancels it. -/
theorem cancelled_clause : ¬ ∀ acts c, (machine echoApp).run acts = some c → Spoken c := by
  intro hall
  obtain ⟨spoken, rest, hcommitted, hsent, -⟩ := hall [.asrFinal ['a'] (), .turn,
    .asrFinal ['b'] (), .turn, .turn, .turn, .turn, .turn] _ rfl
  have hdeltas : [⟨['a'], 0⟩, ⟨['b'], 1⟩] = spoken ++ rest := hcommitted
  have hspoken : ['b'] = saying spoken := hsent
  cases spoken with
  | nil => exact absurd hspoken (by decide)
  | cons delta more =>
    obtain ⟨rfl, -⟩ := List.cons.inj hdeltas
    exact absurd (List.cons.inj hspoken).1 (by decide)

/-- A clause of a partial, and the rest with the final. -/
def clauseAndRest : List (Act Unit) :=
  [.asrPartial ['a', ','] (), .dispatcher, .asrFinal ['a', ',', 'b'] (), .turn, .turn, .turn,
    .turn, .turn]

theorem clauseAndRest_spoken : ∃ c, (machine echoApp).run clauseAndRest = some c ∧ Spoken c := by
  obtain ⟨c, hrun⟩ : ∃ c, (machine echoApp).run clauseAndRest = some c := ⟨_, rfl⟩
  exact ⟨c, hrun, spoken_of_keeps echoApp hrun (by decide +kernel)⟩

end OpenVoiceStream.Translate
