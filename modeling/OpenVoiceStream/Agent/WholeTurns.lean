import OpenVoiceStream.Agent.Segments

/-!
# Utterances that reach the model whole

The buffer holds new texts that came since an utterance was last abandoned, and, as long as no
final was dropped as noise, all of the utterance that is open. A final in hand is the newest
entry of the log, or something has been abandoned since and the buffer is empty.

## Main definitions

* `Kept`, `Routed` — what the buffer and a text on its way hold.
* `Held` — the same for every place of the dispatcher.
* `Turns` — the turns that went out are right, and nothing new followed in their utterances.

## Main results

* `Held.effect` — tasks and timers.
* `held_handleFinal` — what becomes of a final.
* `held_step`, `turns_step` — a careful step.
* `whole_of_careful` — every run of careful steps.
-/

namespace OpenVoiceStream.Agent.Segments

open V2v.Tts (CharTables strip lstrip)

variable {cfg : Config}

/-! ### Joined texts -/

/-- There is no white space at either end. -/
def Trimmed (u : CharTables) (text : Text) : Prop :=
  (∀ c ∈ text.head?, u.isSpace c = false) ∧ ∀ c ∈ text.getLast?, u.isSpace c = false

theorem trimmed_nil (u : CharTables) : Trimmed u [] := ⟨nofun, nofun⟩

theorem head?_dropWhile_false (p : Char → Bool) (text : Text) :
    ∀ c ∈ (text.dropWhile p).head?, p c = false := by
  intro c hc
  have h := List.head?_dropWhile_not p text
  rw [Option.mem_def.mp hc] at h
  exact h

theorem trimmed_strip (u : CharTables) (text : Text) : Trimmed u (strip u text) := by
  constructor
  · intro c hc
    rw [strip, List.head?_reverse] at hc
    obtain ⟨front, hfront⟩ := List.dropWhile_suffix u.isSpace (l := (lstrip u text).reverse)
    -- what is left of the reversed text ends as it did
    have hlast := congrArg List.getLast? hfront
    rw [List.getLast?_append, Option.mem_def.mp hc, List.getLast?_reverse] at hlast
    exact head?_dropWhile_false _ text c hlast.symm
  · intro c hc
    rw [strip, List.getLast?_reverse] at hc
    exact head?_dropWhile_false _ _ c hc

theorem dropWhile_eq_self {p : Char → Bool} {text : Text} (h : ∀ c ∈ text.head?, p c = false) :
    text.dropWhile p = text := by
  cases text with
  | nil => rfl
  | cons c text => exact List.dropWhile_cons_of_neg (Bool.eq_false_iff.mp (h c rfl))

theorem Trimmed.strip_eq {u : CharTables} {text : Text} (h : Trimmed u text) :
    strip u text = text := by
  rw [strip, lstrip, dropWhile_eq_self h.1, dropWhile_eq_self, List.reverse_reverse]
  rw [List.head?_reverse]
  exact h.2

theorem Trimmed.append {u : CharTables} {left gap right : Text} (hleft : Trimmed u left)
    (hright : Trimmed u right) (hl : left ≠ []) (hr : right ≠ []) :
    Trimmed u (left ++ gap ++ right) := by
  constructor
  · rw [List.append_assoc, List.head?_append_of_ne_nil _ hl]
    exact hleft.1
  · rw [List.getLast?_append_of_ne_nil _ hr]
    exact hright.2

theorem seam_cases (left right : Text) : seam left right = [] ∨ seam left right = [' '] := by
  rw [seam]
  split
  · exact .inr rfl
  · exact .inl rfl

theorem Assembled.eq_nil {texts : List Text} {text : Text} (h : Assembled cfg texts text)
    (hnew : ∀ t ∈ texts, strip cfg.tables t ≠ []) (hnil : text = []) : texts = [] := by
  cases h with
  | nil => rfl
  | single last => exact absurd hnil (hnew last (List.mem_singleton_self last))
  | snoc gap last _ _ _ =>
    exact absurd (List.append_eq_nil_iff.mp hnil).2 (hnew last (List.mem_append_right _
      (List.mem_singleton_self last)))

theorem Assembled.nil_eq {text : Text} (h : Assembled cfg [] text) : text = [] := by
  generalize htexts : ([] : List Text) = texts at h
  cases h with
  | nil => rfl
  | single => cases htexts
  | snoc => exact absurd htexts.symm (List.append_ne_nil_of_right_ne_nil _ (List.cons_ne_nil _ _))

/-- A text that says nothing adds nothing. -/
theorem join_blank {left right : Text} (hleft : Trimmed cfg.tables left)
    (hright : strip cfg.tables right = []) : joinAsrSegmentText cfg left right = left := by
  rw [joinAsrSegmentText, hleft.strip_eq, hright]
  split
  · next h => exact h.symm
  · rfl

/-- A text that says something is put at the end. -/
theorem Assembled.join {texts : List Text} {left right : Text} (h : Assembled cfg texts left)
    (hnew : ∀ t ∈ texts, strip cfg.tables t ≠ []) (hleft : Trimmed cfg.tables left)
    (hright : strip cfg.tables right ≠ []) :
    Assembled cfg (texts ++ [right]) (joinAsrSegmentText cfg left right) ∧
      Trimmed cfg.tables (joinAsrSegmentText cfg left right) := by
  rw [joinAsrSegmentText, hleft.strip_eq]
  split
  · next hnil =>
    rw [h.eq_nil hnew hnil]
    exact ⟨.single right, trimmed_strip _ right⟩
  · next hne =>
    refine ⟨.snoc _ right (fun htexts => ?_) h (seam_cases _ _),
      hleft.append (trimmed_strip _ right) hne hright⟩
    rw [htexts] at h
    exact hne h.nil_eq

/-! ### The log -/

@[simp] theorem opened_final (final : ASRFinal) (log : List Entry) :
    opened (.final final false :: log) = opened log ++ [final] := rfl

theorem news_append (first second : List ASRFinal) :
    news cfg (first ++ second) = news cfg first ++ news cfg second := by
  rw [news, List.filter_append, List.map_append]
  rfl

theorem news_of_isNew {final : ASRFinal} (h : final.isNew cfg = true) :
    news cfg [final] = [final.text] := by
  rw [news, List.filter_cons_of_pos h]
  rfl

theorem news_of_not_isNew {final : ASRFinal} (h : final.isNew cfg = false) :
    news cfg [final] = [] := by
  rw [news, List.filter_cons_of_neg (Bool.eq_false_iff.mp h)]
  rfl

theorem text_of_isNew {final : ASRFinal} (h : final.isNew cfg = true) :
    final.finalText = final.text ∧ strip cfg.tables final.text ≠ [] := by
  have hne := of_decide_eq_true h
  rw [ASRFinal.finalText] at hne ⊢
  split at hne
  · exact absurd rfl hne
  · next hdup => exact ⟨if_neg hdup, hne⟩

theorem blank_of_not_isNew {final : ASRFinal} (h : final.isNew cfg = false) :
    strip cfg.tables final.finalText = [] := Decidable.not_not.mp (of_decide_eq_false h)

theorem mem_news {finals : List ASRFinal} {text : Text} (h : text ∈ news cfg finals) :
    strip cfg.tables text ≠ [] := by
  obtain ⟨final, hfinal, rfl⟩ := List.mem_map.mp h
  exact (text_of_isNew (List.mem_filter.mp hfinal).2).2

theorem quiet_append {first second : List ASRFinal} :
    quiet cfg (first ++ second) = true ↔ quiet cfg first = true ∧ quiet cfg second = true := by
  rw [quiet, List.all_append, Bool.and_eq_true]
  rfl

/-- Nothing new comes from a quiet final that is dropped. -/
theorem not_isNew_of_quiet {final : ASRFinal} (h : quiet cfg [final] = true)
    (hdropped : final.isNew cfg = true → noise cfg final = true) : final.isNew cfg = false := by
  rw [Bool.eq_false_iff]
  intro hnew
  rw [quiet, List.all_cons, hnew, hdropped hnew] at h
  cases h

/-! ### What the buffer holds -/

/-- The buffer holds these texts: new since an utterance was last abandoned, and all of the
utterance that is open where none of it was noise. -/
structure Kept (cfg : Config) (log : List Entry) (pending : Text) (texts : List Text) : Prop where
  assembled : Assembled cfg texts pending
  trimmed : Trimmed cfg.tables pending
  sublist : texts.Sublist (news cfg (sinceAbandoned log))
  whole : quiet cfg (opened log) = true → (news cfg (opened log)).Sublist texts

/-- A text on its way holds these texts: as the buffer, with the final at the top of the log. -/
structure Routed (cfg : Config) (log : List Entry) (text : Text) (texts : List Text) : Prop where
  assembled : Assembled cfg texts text
  sublist : texts.Sublist (news cfg (sinceAbandoned log))
  whole : quiet cfg (opened log.tail) = true → (news cfg (heard log)).Sublist texts

section Kept

variable {log : List Entry} {pending : Text} {texts : List Text} {final : ASRFinal} {closing : Bool}

theorem kept_init : Kept cfg [] [] [] :=
  ⟨.nil, trimmed_nil _, List.nil_sublist _, fun _ => List.nil_sublist _⟩

theorem kept_abandoned : Kept cfg (.abandoned :: log) [] [] :=
  ⟨.nil, trimmed_nil _, List.nil_sublist _, fun _ => List.nil_sublist _⟩

theorem kept_turn {text : Text} : Kept cfg (.turn text :: log) [] [] :=
  ⟨.nil, trimmed_nil _, List.nil_sublist _, fun _ => List.nil_sublist _⟩

theorem Kept.texts_ne_nil (h : Kept cfg log pending texts) :
    ∀ text ∈ texts, strip cfg.tables text ≠ [] :=
  fun _ htext => mem_news (h.sublist.subset htext)

theorem Kept.sublist_final (h : Kept cfg log pending texts) :
    texts.Sublist (news cfg (sinceAbandoned (.final final closing :: log))) := by
  rw [sinceAbandoned, news_append]
  exact h.sublist.trans (List.sublist_append_left _ _)

/-- **A final is dropped**: it is noise, or says nothing new. -/
theorem Kept.drop (h : Kept cfg log pending texts)
    (hdropped : final.isNew cfg = true → noise cfg final = true) :
    Kept cfg (.final final closing :: log) pending texts := by
  refine ⟨h.assembled, h.trimmed, h.sublist_final, fun hquiet => ?_⟩
  cases closing with
  | true => exact List.nil_sublist _
  | false =>
    rw [opened_final] at hquiet ⊢
    obtain ⟨hlog, hfinal⟩ := quiet_append.mp hquiet
    rw [news_append, news_of_not_isNew (not_isNew_of_quiet hfinal hdropped), List.append_nil]
    exact h.whole hlog

/-- The text of a new final comes last in the buffer. -/
theorem Kept.sublist_join (h : Kept cfg log pending texts) (hnew : final.isNew cfg = true) :
    (texts ++ [final.text]).Sublist
      (news cfg (sinceAbandoned (.final final closing :: log))) := by
  rw [sinceAbandoned, news_append, news_of_isNew hnew]
  exact h.sublist.append_right [final.text]

theorem Kept.whole_join (h : Kept cfg log pending texts) (hnew : final.isNew cfg = true)
    (hquiet : quiet cfg (opened log) = true) :
    (news cfg (opened log ++ [final])).Sublist (texts ++ [final.text]) := by
  rw [news_append, news_of_isNew hnew]
  exact (h.whole hquiet).append_right [final.text]

theorem Kept.join (h : Kept cfg log pending texts) (hnew : final.isNew cfg = true) :
    Assembled cfg (texts ++ [final.text]) (joinAsrSegmentText cfg pending final.finalText) ∧
      Trimmed cfg.tables (joinAsrSegmentText cfg pending final.finalText) := by
  obtain ⟨htext, hne⟩ := text_of_isNew hnew
  rw [htext]
  exact h.assembled.join h.texts_ne_nil h.trimmed hne

/-- **A final is kept.** -/
theorem Kept.keep (h : Kept cfg log pending texts) (hnew : final.isNew cfg = true) :
    Kept cfg (.final final closing :: log) (joinAsrSegmentText cfg pending final.finalText)
      (texts ++ [final.text]) := by
  refine ⟨(h.join hnew).1, (h.join hnew).2, h.sublist_join hnew, fun hquiet => ?_⟩
  cases closing with
  | true => exact List.nil_sublist _
  | false =>
    rw [opened_final] at hquiet ⊢
    exact h.whole_join hnew (quiet_append.mp hquiet).1

/-- **A final is routed** with what has been kept. -/
theorem Kept.route (h : Kept cfg log pending texts) :
    ∃ texts, Routed cfg (.final final closing :: log)
      (joinAsrSegmentText cfg pending final.finalText) texts := by
  cases hnew : final.isNew cfg with
  | true => exact ⟨_, (h.join hnew).1, h.sublist_join hnew, h.whole_join hnew⟩
  | false =>
    rw [join_blank h.trimmed (blank_of_not_isNew hnew)]
    refine ⟨texts, h.assembled, h.sublist_final, fun hquiet => ?_⟩
    rw [heard, news_append, news_of_not_isNew hnew, List.append_nil]
    exact h.whole hquiet

end Kept

/-! ### The places of the dispatcher -/

/-- The final in hand is on top of the log and the buffer is as before it, or something has been
abandoned since and the buffer is empty. -/
def InHand (cfg : Config) (log : List Entry) (pending : Text) (final : ASRFinal) : Prop :=
  (∃ closing log' texts, log = .final final closing :: log' ∧ Kept cfg log' pending texts) ∨
    ∃ log', log = .abandoned :: log' ∧ pending = []

/-- The buffer and what the dispatcher has in hand. -/
def Held (cfg : Config) (s : App) : Prop :=
  match s.place with
  | .reconnecting final _ => InHand cfg s.log s.pendingAsrUtteranceText final
  | .superseding text | .announcing text | .replacing text =>
    s.pendingAsrUtteranceText = [] ∧ (fresh s.log = true → ∃ texts, Routed cfg s.log text texts)
  | .awaiting .reopen => ∃ log, s.log = .abandoned :: log
  | .ready | .awaiting _ => ∃ texts, Kept cfg s.log s.pendingAsrUtteranceText texts

/-- Asleep, nothing is kept. -/
def Asleep (s : App) : Prop := s.state = .sleeping → s.pendingAsrUtteranceText = []

/-- What tasks and timers do to the buffer and the log: nothing, or an utterance is abandoned with
the buffer empty. The agent falls asleep with an empty buffer. -/
structure Effect (s s' : App) : Prop where
  place : s'.place = s.place
  log : s'.log = s.log ∧ s'.pendingAsrUtteranceText = s.pendingAsrUtteranceText ∨
    s'.log = .abandoned :: s.log ∧ s'.pendingAsrUtteranceText = []
  asleep : Asleep s → Asleep s'

theorem Effect.refl (s : App) : Effect s s := ⟨rfl, .inl ⟨rfl, rfl⟩, id⟩

theorem effect_of_same {s s' : App} (hplace : s'.place = s.place) (hlog : s'.log = s.log)
    (hpending : s'.pendingAsrUtteranceText = s.pendingAsrUtteranceText)
    (hstate : s'.state = .sleeping → s.state = .sleeping) : Effect s s' :=
  ⟨hplace, .inl ⟨hlog, hpending⟩, fun h hasleep => hpending.trans (h (hstate hasleep))⟩

theorem effect_of_cleared {s s' : App} (hplace : s'.place = s.place)
    (hlog : s'.log = .abandoned :: s.log) (hpending : s'.pendingAsrUtteranceText = []) :
    Effect s s' := ⟨hplace, .inr ⟨hlog, hpending⟩, fun _ _ => hpending⟩

theorem Held.effect {s s' : App} (h : Held cfg s) (heffect : Effect s s') : Held cfg s' := by
  obtain ⟨hplace, ⟨hlog, hpending⟩ | ⟨hlog, hpending⟩, -⟩ := heffect
  · rw [Held, hplace, hlog, hpending]
    exact h
  · rw [Held] at h ⊢
    rw [hplace, hlog, hpending]
    split
    · exact .inr ⟨_, rfl, rfl⟩
    · exact ⟨rfl, nofun⟩
    · exact ⟨rfl, nofun⟩
    · exact ⟨rfl, nofun⟩
    · exact ⟨_, rfl⟩
    · exact ⟨[], kept_abandoned⟩
    · exact ⟨[], kept_abandoned⟩

theorem Effect.start {s s' : App} (h : Effect s s') (next : Option Task) :
    Effect s (next.elim s' s'.start) := by
  cases next with
  | none => exact h
  | some task => exact ⟨h.place, h.log, h.asleep⟩

theorem effect_returnToSleep (s : App) : Effect s s.returnToSleep := by
  rw [App.returnToSleep]
  split
  · exact .refl s
  · exact effect_of_cleared rfl rfl rfl

/-- **A task goes on.** -/
theorem effect_goOn (s : App) (ok : Bool) (task : Task) : Effect s (task.goOn s ok).1 := by
  cases task with
  | bargeIn | turnDone => exact effect_of_same rfl rfl rfl id
  | claimThinking | pttListen | recovery => exact effect_of_same rfl rfl rfl nofun
  | speechEnd =>
    rw [Task.goOn]
    split
    · exact effect_of_same rfl rfl rfl nofun
    · exact effect_of_same rfl rfl rfl id
  | claimBargedIn =>
    rw [Task.goOn]
    dsimp only
    split <;> exact effect_of_same rfl rfl rfl (by simp)
  | noFinalFeedback =>
    rw [Task.goOn]
    dsimp only
    split
    · exact .refl s
    · exact effect_returnToSleep s
  | sleep ends => exact effect_of_cleared rfl rfl rfl
  | wake ptt =>
    rw [Task.goOn]
    dsimp only
    split <;> exact effect_of_same rfl rfl rfl (by simp)
  | functionCall =>
    rw [Task.goOn]
    dsimp only
    split <;> exact effect_of_same rfl rfl rfl (by simp)
  | transportError oldState =>
    rw [Task.goOn]
    dsimp only
    split <;> exact effect_of_same rfl rfl rfl (by simp)
  | reopen =>
    rw [Task.goOn]
    split
    · exact effect_of_cleared rfl rfl rfl
    · exact .refl s
  | stop shouldSleep =>
    rw [Task.goOn]
    split
    · exact effect_of_same rfl rfl rfl (by simp)
    · split
      · dsimp only
        split <;> exact effect_of_same rfl rfl rfl (by simp)
      · exact .refl s

/-- No task comes to the reconnect of the dispatcher. -/
theorem goOn_ne_reopen (s : App) (ok : Bool) (task : Task) :
    (task.goOn s ok).2 ≠ some .reopen := by
  cases task <;> rw [Task.goOn] <;> grind

theorem effect_completeAssistantTurn (s : App) (completion : Completion) :
    Effect s (completeAssistantTurn s completion).1 := by
  cases completion with
  | sleepAfter => exact .refl s
  | retryWindow =>
    rw [completeAssistantTurn]
    split <;> exact effect_of_same rfl rfl rfl (by simp)
  | returnToSleep =>
    rw [completeAssistantTurn]
    dsimp only
    split
    · exact .refl s
    · exact effect_returnToSleep s
  | plain =>
    rw [completeAssistantTurn]
    dsimp only
    split <;> exact effect_of_same rfl rfl rfl (by simp)

/-! ### The dispatcher -/

/-- The buffer of a dispatcher that has nothing in hand. -/
theorem held_of_kept {s : App} {T : List Text} (next : Option Task)
    (h : Kept cfg s.log s.pendingAsrUtteranceText T)
    (hplace : s.place = next.elim .ready .awaiting) (hne : next ≠ some .reopen) : Held cfg s := by
  rw [Held, hplace]
  cases next with
  | none => exact ⟨T, h⟩
  | some task =>
    cases task with
    | reopen => exact absurd rfl hne
    | _ => exact ⟨T, h⟩

theorem kept_of_held {s : App} (next : Option Task) (h : Held cfg s)
    (hplace : s.place = next.elim .ready .awaiting) (hne : next ≠ some .reopen) :
    ∃ texts, Kept cfg s.log s.pendingAsrUtteranceText texts := by
  rw [Held, hplace] at h
  cases next with
  | none => exact h
  | some task =>
    cases task with
    | reopen => exact absurd rfl hne
    | _ => exact h

theorem held_dropFinal {s : App} {texts : List Text} (had : Bool) (hplace : s.place = .ready)
    (h : Kept cfg s.log s.pendingAsrUtteranceText texts) : Held cfg (dropFinal cfg s had) := by
  rw [dropFinal]
  split
  · exact held_of_kept none h hplace nofun
  · split
    · split
      · exact held_of_kept (some .noFinalFeedback) h rfl nofun
      · exact held_of_kept none h hplace nofun
    · exact held_of_kept none h hplace nofun

/-- **What becomes of a final.** -/
theorem held_handleFinal {s : App} {final : ASRFinal} {had interrupts : Bool}
    (h : InHand cfg s.log s.pendingAsrUtteranceText final)
    (hcareful : final.isNew cfg = true → noise cfg final = true ∨ fresh s.log = true) :
    Held cfg (handleFinal cfg s final had interrupts) := by
  rw [handleFinal]
  dsimp only
  split
  · -- dropped
    next hdrop =>
    have hnoise : noise cfg final = true := (Bool.and_eq_true_iff.mp hdrop).1
    have hkept : ∃ texts, Kept cfg s.log s.pendingAsrUtteranceText texts := by
      obtain ⟨closing, log, texts, heq, hkept⟩ | ⟨log, heq, hnil⟩ := h
      · rw [heq]
        exact ⟨texts, hkept.drop fun _ => hnoise⟩
      · rw [heq, hnil]
        exact ⟨[], kept_abandoned⟩
    obtain ⟨texts, hkept⟩ := hkept
    exact held_dropFinal had rfl hkept
  · next hdrop =>
    split
    · -- kept for the end of the utterance
      obtain ⟨closing, log, texts, heq, hkept⟩ | ⟨log, heq, hnil⟩ := h
      · split
        · next hblank =>
          have hnew : final.isNew cfg = false := decide_eq_false (not_not_intro hblank)
          refine held_of_kept (T := texts) none ?_ rfl nofun
          show Kept cfg s.log s.pendingAsrUtteranceText texts
          rw [heq]
          exact hkept.drop fun h => absurd (hnew.symm.trans h) nofun
        · next hne =>
          have hnew : final.isNew cfg = true := decide_eq_true hne
          refine held_of_kept (T := texts ++ [final.text]) none ?_ rfl nofun
          show Kept cfg s.log _ _
          rw [heq]
          exact hkept.keep hnew
      · split
        · refine held_of_kept (T := []) none ?_ rfl nofun
          show Kept cfg s.log s.pendingAsrUtteranceText []
          rw [heq, hnil]
          exact kept_abandoned
        · next hne =>
          obtain hnoise | hfresh := hcareful (decide_eq_true hne)
          · rw [hnoise, hnil] at hdrop
            simp at hdrop
          · rw [heq] at hfresh
            cases hfresh
    · -- routed
      have hrouted : fresh s.log = true → ∃ texts, Routed cfg s.log
          (joinAsrSegmentText cfg s.pendingAsrUtteranceText final.finalText) texts := by
        intro hfresh
        obtain ⟨closing, log, texts, heq, hkept⟩ | ⟨log, heq, hnil⟩ := h
        · rw [heq]
          exact hkept.route
        · rw [heq] at hfresh
          cases hfresh
      split
      · exact ⟨rfl, hrouted⟩
      · exact ⟨rfl, hrouted⟩

theorem held_asrFinal {s : App} {final : ASRFinal} {interrupts : Bool} (hplace : s.place = .ready)
    (h : Held cfg s) (hasleep : Asleep s) : Held cfg (asrFinal cfg s final interrupts) := by
  obtain ⟨texts, hkept⟩ := kept_of_held none h hplace nofun
  have hdropped (hblank : strip cfg.tables final.finalText = []) :
      Kept cfg (.final final s.outstanding :: s.log) s.pendingAsrUtteranceText texts :=
    hkept.drop fun hnew => absurd hblank (of_decide_eq_true hnew)
  have hinHand : InHand cfg (.final final s.outstanding :: s.log) s.pendingAsrUtteranceText final :=
    .inl ⟨_, _, texts, rfl, hkept⟩
  rw [asrFinal]
  split
  · next hstate =>
    -- the final is abandoned as it comes
    refine held_of_kept (T := []) none ?_ hplace nofun
    show Kept cfg (.abandoned :: _) s.pendingAsrUtteranceText []
    rw [hasleep hstate]
    exact kept_abandoned
  · dsimp only
    split
    · next hdup =>
      have hblank : strip cfg.tables final.finalText = [] := by
        rw [ASRFinal.finalText, if_pos (Bool.and_eq_true_iff.mp hdup).1]
        rfl
      split
      · exact held_of_kept none (hdropped hblank) hplace nofun
      · exact held_of_kept none (hdropped hblank) hplace nofun
    · split
      · exact hinHand
      · exact held_handleFinal hinHand fun _ => .inr rfl

/-- The dispatcher has started to await a task, or is done with an event. -/
theorem Held.moved {s s' : App} (last next : Option Task) (h : Held cfg s)
    (hplace : s.place = last.elim .ready .awaiting) (hlast : last ≠ some .reopen)
    (heffect : Effect s s') (hnext : next ≠ some .reopen) :
    Held cfg { s' with place := next.elim .ready .awaiting } := by
  have h' := h.effect heffect
  obtain ⟨texts, hkept⟩ := kept_of_held last h' (heffect.place.trans hplace) hlast
  exact held_of_kept next hkept rfl hnext

/-- The dispatcher goes on after its reconnect. -/
theorem held_reopen {s : App} {ok : Bool} (h : Held cfg s) (hplace : s.place = .awaiting .reopen)
    (hcareful : ok = false → s.pendingAsrUtteranceText = []) :
    Held cfg { (Task.goOn s ok .reopen).1 with place := .ready } := by
  rw [Held, hplace] at h
  obtain ⟨log, hlog⟩ := h
  refine held_of_kept (T := []) none ?_ rfl nofun
  cases ok with
  | true => exact kept_abandoned
  | false =>
    show Kept cfg s.log s.pendingAsrUtteranceText []
    rw [hlog, hcareful rfl]
    exact kept_abandoned

theorem held_startTurn (s : App) (text : Text) (hpending : s.pendingAsrUtteranceText = []) :
    Held cfg (startTurn s text) := by
  refine held_of_kept (T := []) none ?_ rfl nofun
  show Kept cfg (.turn text :: s.log) s.pendingAsrUtteranceText []
  rw [hpending]
  exact kept_turn

/-- **The dispatcher goes on.** -/
theorem held_goOn {s s' : App} {ok : Bool} (h : Held cfg s) (hcareful : Careful cfg s (.goOn ok))
    (hstep : goOn cfg s ok = some s') : Held cfg s' := by
  rw [goOn] at hstep
  rw [Careful] at hcareful
  split at hstep
  · cases hstep
  · next final had hplace =>
    cases hstep
    rw [hplace] at hcareful
    rw [Held, hplace] at h
    exact held_handleFinal h hcareful
  · next text hplace =>
    cases hstep
    rw [Held, hplace] at h
    exact h
  · next text hplace =>
    have hway := h
    rw [Held, hplace] at hway
    split at hstep
    · cases hstep
      refine held_of_kept (T := []) (some _) ?_ rfl nofun
      show Kept cfg (.turn text :: s.log) s.pendingAsrUtteranceText []
      rw [hway.1]
      exact kept_turn
    · split at hstep
      · cases hstep
        exact hway
      · cases hstep
        exact held_startTurn s text hway.1
  · next text hplace =>
    cases hstep
    rw [Held, hplace] at h
    exact held_startTurn s text h.1
  · next task hplace =>
    obtain rfl : { (task.goOn s ok).1 with place := (task.goOn s ok).2.elim .ready .awaiting } = s' :=
      Option.some_inj.mp hstep
    rw [hplace] at hcareful
    by_cases htask : task = .reopen
    · rw [htask] at hplace hcareful ⊢
      have hnext : (Task.goOn s ok .reopen).2 = none := by cases ok <;> rfl
      rw [hnext]
      exact held_reopen h hplace hcareful
    · exact h.moved (some task) _ hplace (fun heq => htask (Option.some_inj.mp heq))
        (effect_goOn s ok task) (goOn_ne_reopen s ok task)

theorem asleep_handleFinal {s : App} {final : ASRFinal} {had interrupts : Bool} (h : Asleep s) :
    Asleep (handleFinal cfg s final had interrupts) := by
  rw [handleFinal]
  dsimp only
  split
  · rw [dropFinal]
    split
    · exact nofun
    · split
      · split
        · exact h
        · exact nofun
      · exact h
  · split
    · next hawake =>
      split
      · exact h
      · intro hstate
        rw [show s.state = .sleeping from hstate] at hawake
        simp at hawake
    · split
      · exact fun _ => rfl
      · exact fun _ => rfl

theorem asleep_asrFinal {s : App} {final : ASRFinal} {interrupts : Bool} (h : Asleep s) :
    Asleep (asrFinal cfg s final interrupts) := by
  rw [asrFinal]
  split
  · exact h
  · dsimp only
    split
    · split
      · exact nofun
      · exact h
    · split
      · exact h
      · exact asleep_handleFinal (s := { s with
          outstanding := false, eosSentThisTurn := false, log := _ }) h

theorem asleep_goOn {s s' : App} {ok : Bool} (h : Asleep s) (hstep : goOn cfg s ok = some s') :
    Asleep s' := by
  rw [goOn] at hstep
  split at hstep
  · cases hstep
  · cases hstep
    exact asleep_handleFinal h
  · cases hstep
    exact h
  · split at hstep
    · cases hstep
      exact h
    · split at hstep
      · cases hstep
        exact h
      · cases hstep
        exact nofun
  · cases hstep
    exact nofun
  · next task hplace =>
    obtain rfl : { (task.goOn s ok).1 with place := (task.goOn s ok).2.elim .ready .awaiting } = s' :=
      Option.some_inj.mp hstep
    exact (effect_goOn s ok task).asleep h

/-! ### Steps -/

theorem effect_callSleep {s s' : App} (h : callSleep s = some s') : Effect s s' := by
  rw [callSleep] at h
  split at h
  · cases h
  · cases h
    exact effect_of_same rfl rfl rfl id

/-- The steps in which the dispatcher has no part. -/
def Event.aside : Event → Bool
  | .asrFinal _ _ | .bargeInFrame | .firstTtsAudio | .functionCallDone | .turnDone _ | .slvError
  | .readerExited _ | .goOn _ => false
  | _ => true

/-- **Tasks, timers and calls.** -/
theorem effect_step {s s' : App} {e : Event} (haside : e.aside = true) (hcareful : Careful cfg s e)
    (hstep : step cfg s e = some s') : Effect s s' := by
  cases e with
  | asrFinal | bargeInFrame | firstTtsAudio | functionCallDone | turnDone | slvError
  | readerExited | goOn => cases haside
  | speechStarted playing bargeInEnabled delayElapsed =>
    rw [step] at hstep
    split at hstep
    · cases hstep
    · dsimp only at hstep
      -- a stale latch is cleared first
      generalize hs₀ : (if s.state = .thinking ∧ s.eosSentThisTurn then
        { s with eosSentThisTurn := false } else s) = s₀ at hstep
      have h₀ : Effect s s₀ := by
        rw [← hs₀]
        split
        · exact effect_of_same rfl rfl rfl id
        · exact .refl s
      split at hstep
      · split at hstep
        · cases hstep
          exact ⟨h₀.place, h₀.log, fun _ => nofun⟩
        · cases hstep
          exact h₀
      · cases hstep
        exact ⟨h₀.place, h₀.log, fun _ => nofun⟩
  | speechEnded =>
    rw [step] at hstep
    split at hstep
    · cases hstep
    · cases hstep
      exact effect_of_same rfl rfl rfl id
  | gateClosed delivered =>
    rw [step] at hstep
    split at hstep
    · cases hstep
    · cases hstep
      exact effect_of_same rfl rfl rfl id
  | asrFinalTimeout =>
    rw [step] at hstep
    split at hstep
    · cases hstep
    · split at hstep
      · dsimp only at hstep
        split at hstep
        · cases hstep
          exact effect_of_cleared rfl rfl rfl
        · cases hstep
          exact effect_of_cleared rfl rfl rfl
      · cases hstep
        exact effect_of_same rfl rfl rfl id
  | thinkingTimeout =>
    rw [step] at hstep
    split at hstep
    · next hstate =>
      cases hstep
      exact effect_of_cleared rfl rfl (hcareful hstate)
    · cases hstep
  | stallTimeout delivered =>
    rw [step] at hstep
    split at hstep
    · cases hstep
      exact effect_of_same rfl rfl rfl id
    · cases hstep
  | bargeInTimeout delivered =>
    rw [step] at hstep
    split at hstep
    · split at hstep
      · cases hstep
        exact effect_of_same rfl rfl rfl nofun
      · cases hstep
        exact effect_of_same rfl rfl rfl id
    · cases hstep
  | wakeCommandTimeout delivered =>
    rw [step] at hstep
    split at hstep
    · split at hstep
      · cases hstep
        exact effect_of_same rfl rfl rfl nofun
      · cases hstep
        exact effect_of_same rfl rfl rfl nofun
    · cases hstep
  | sleepTimeout =>
    rw [step] at hstep
    split at hstep
    · exact effect_callSleep hstep
    · cases hstep
  | sleep => exact effect_callSleep hstep
  | wake =>
    rw [step] at hstep
    split at hstep
    · cases hstep
      exact effect_of_same rfl rfl rfl id
    · cases hstep
  | pttStart =>
    rw [step] at hstep
    split at hstep
    · cases hstep
      exact effect_of_same rfl rfl rfl id
    · cases hstep
      exact effect_of_same rfl rfl rfl nofun
  | pttEnd delivered =>
    rw [step] at hstep
    split at hstep
    · cases hstep
      exact effect_of_same rfl rfl rfl nofun
    · cases hstep
      exact effect_of_same rfl rfl rfl id
  | llmFailed =>
    cases hstep
    exact effect_of_same rfl rfl rfl nofun
  | silentTurn =>
    rw [step] at hstep
    split at hstep
    · cases hstep
      exact effect_of_same rfl rfl rfl nofun
    · cases hstep
  | playbackDrained completion =>
    obtain rfl : (completeAssistantTurn s completion).2.elim (completeAssistantTurn s completion).1
        (completeAssistantTurn s completion).1.start = s' := Option.some_inj.mp hstep
    exact (effect_completeAssistantTurn s completion).start _
  | resume i ok =>
    rw [step] at hstep
    split at hstep
    · cases hstep
    · next task _ =>
      obtain rfl : (task.goOn { s with tasks := s.tasks.eraseIdx i } ok).2.elim
          (task.goOn { s with tasks := s.tasks.eraseIdx i } ok).1
          (task.goOn { s with tasks := s.tasks.eraseIdx i } ok).1.start = s' :=
        Option.some_inj.mp hstep
      have h := effect_goOn { s with tasks := s.tasks.eraseIdx i } ok task
      exact (Effect.mk h.place h.log h.asleep : Effect s _).start _
  | cancel i =>
    rw [step] at hstep
    split at hstep
    · cases hstep
    · cases hstep
      exact effect_of_same rfl rfl rfl id

/-- What a careful step keeps. -/
structure Inv (cfg : Config) (s : App) : Prop where
  held : Held cfg s
  asleep : Asleep s

theorem inv_init : Inv cfg (App.init cfg) :=
  ⟨⟨[], kept_init⟩, fun _ => rfl⟩

/-- A dispatcher that is ready takes an event. -/
theorem Inv.take {s : App} (s' : App) (next : Option Task) (h : Inv cfg s)
    (hplace : s.place = .ready) (heffect : Effect s s') (hnext : next ≠ some .reopen) :
    Inv cfg { s' with place := next.elim .ready .awaiting } :=
  ⟨h.held.moved none next hplace nofun heffect hnext, heffect.asleep h.asleep⟩

/-- **A careful step.** -/
theorem inv_step {s s' : App} {e : Event} (h : Inv cfg s) (hcareful : Careful cfg s e)
    (hstep : step cfg s e = some s') : Inv cfg s' := by
  cases haside : e.aside with
  | true =>
    have heffect := effect_step haside hcareful hstep
    exact ⟨h.held.effect heffect, heffect.asleep h.asleep⟩
  | false =>
    cases e with
    | asrFinal final interrupts =>
      rw [step] at hstep
      split at hstep
      · next hplace =>
        cases hstep
        exact ⟨held_asrFinal hplace h.held h.asleep, asleep_asrFinal h.asleep⟩
      · cases hstep
    | goOn ok => exact ⟨held_goOn h.held hcareful hstep, asleep_goOn h.asleep hstep⟩
    | bargeInFrame =>
      rw [step] at hstep
      split at hstep
      · next hcan =>
        cases hstep
        exact h.take { s with state := .bargedIn } (some .bargeIn) hcan.1
          (effect_of_same rfl rfl rfl nofun) nofun
      · cases hstep
    | firstTtsAudio =>
      rw [step] at hstep
      split at hstep
      · next hcan =>
        cases hstep
        exact ⟨h.held.effect (effect_of_same rfl rfl rfl nofun), nofun⟩
      · cases hstep
    | functionCallDone =>
      rw [step] at hstep
      split at hstep
      · next hplace =>
        cases hstep
        exact h.take s (some .functionCall) hplace (.refl s) nofun
      · cases hstep
    | turnDone completion =>
      rw [step] at hstep
      split at hstep
      · next hplace =>
        have heffect := effect_completeAssistantTurn s completion
        obtain rfl : { (completeAssistantTurn s completion).1 with
            place := .awaiting (if (completeAssistantTurn s completion).2 = none then .turnDone
              else .sleep true) } = s' := Option.some_inj.mp hstep
        refine h.take _ (some (if (completeAssistantTurn s completion).2 = none then .turnDone
          else .sleep true)) hplace heffect ?_
        split <;> nofun
      · cases hstep
    | slvError =>
      rw [step] at hstep
      split at hstep
      · next hplace =>
        cases hstep
        exact h.take s.clearPendingAsrUtterance (some (.transportError s.state)) hplace
          (effect_of_cleared rfl rfl rfl) nofun
      · cases hstep
    | readerExited replaced =>
      rw [step] at hstep
      split at hstep
      · next hplace =>
        cases hstep
        refine ⟨?_, h.asleep⟩
        cases replaced with
        | true =>
          refine held_of_kept (T := []) none ?_ rfl nofun
          show Kept cfg (.abandoned :: s.log) s.pendingAsrUtteranceText []
          rw [hcareful rfl]
          exact kept_abandoned
        | false => exact ⟨s.log, rfl⟩
      · cases hstep
    | _ => cases haside

/-! ### The turns that went out -/

/-- The turns carry what they should, and nothing new has come since in their utterances. -/
def Turns (cfg : Config) (log : List Entry) : Prop :=
  ∀ after text before, log = after ++ .turn text :: before → Carries cfg before [] text ∧
    (closed before = false → news cfg (upToClosing after.reverse) = [])

/-- An utterance is still going on. -/
def Entry.ongoing : Entry → Bool
  | .final _ true | .abandoned => false
  | _ => true

theorem upToClosing_append (later : List Entry) (e : Entry) :
    upToClosing (later ++ [e]) =
      upToClosing later ++ if later.all Entry.ongoing then upToClosing [e] else [] := by
  induction later with
  | nil => rfl
  | cons entry later ih =>
    cases entry with
    | final final closing =>
      cases closing with
      | true => rfl
      | false =>
        rw [List.cons_append, upToClosing, upToClosing, ih]
        rfl
    | turn text => exact ih
    | abandoned => rfl

/-- A turn that has gone out of an utterance that still goes on can be seen. -/
theorem unclosed_of_ongoing {after before : List Entry} (text : Text)
    (hongoing : after.all Entry.ongoing = true) (hclosed : closed before = false) :
    unclosed (after ++ .turn text :: before) = true := by
  induction after with
  | nil =>
    rw [List.nil_append, unclosed, hclosed]
    rfl
  | cons entry after ih =>
    obtain ⟨hentry, hafter⟩ := Bool.and_eq_true_iff.mp hongoing
    cases entry with
    | final final closing =>
      cases closing with
      | true => cases hentry
      | false => exact ih hafter
    | turn other =>
      rw [List.cons_append, unclosed]
      cases after with
      | nil => rfl
      | cons entry after =>
        cases entry with
        | final final closing =>
          cases closing with
          | true => cases (Bool.and_eq_true_iff.mp hafter).1
          | false => rfl
        | _ => rfl
    | abandoned => cases hentry

theorem turns_nil : Turns cfg [] := fun after _ _ h => absurd h.symm (by simp)

/-- One more entry. -/
theorem Turns.cons {log : List Entry} {e : Entry} (h : Turns cfg log)
    (hturn : ∀ text, e = .turn text → Carries cfg log [] text)
    (hfinal : ∀ final closing, e = .final final closing → final.isNew cfg = true →
      unclosed log = false) : Turns cfg (e :: log) := by
  intro after text before heq
  cases after with
  | nil =>
    obtain ⟨rfl, rfl⟩ := List.cons.inj heq
    exact ⟨hturn text rfl, fun _ => rfl⟩
  | cons other after =>
    obtain ⟨rfl, hlog⟩ := List.cons.inj heq
    obtain ⟨hcarries, hnothing⟩ := h after text before hlog
    refine ⟨hcarries, fun hclosed => ?_⟩
    rw [List.reverse_cons, upToClosing_append, news_append, hnothing hclosed, List.nil_append,
      List.all_reverse]
    split
    · next hongoing =>
      cases e with
      | final final closing =>
        have hsame : upToClosing [.final final closing] = [final] := by cases closing <;> rfl
        rw [hsame]
        refine news_of_not_isNew (Bool.eq_false_iff.mpr fun hnew => ?_)
        have hunclosed := unclosed_of_ongoing text hongoing hclosed
        rw [← show log = after ++ .turn text :: before from hlog, hfinal final closing rfl hnew]
          at hunclosed
        cases hunclosed
      | _ => rfl
    · rfl

theorem Turns.whole {log : List Entry} (h : Turns cfg log) : Whole cfg log := by
  intro after text before heq
  obtain ⟨⟨texts, hassembled, hsublist, hall⟩, hnothing⟩ := h after text before heq
  have hsame : news cfg (utterance before after.reverse) = news cfg (utterance before []) := by
    rw [utterance, utterance, news_append, news_append]
    split
    · rfl
    · next hclosed => rw [hnothing (Bool.eq_false_iff.mpr hclosed)]; rfl
  refine ⟨texts, hassembled, hsublist, ?_⟩
  rw [hsame]
  exact hall

/-- A turn that is fit to go out carries what it should. -/
theorem carries_of_routed {log : List Entry} {text : Text} (hfit : fit cfg log = true)
    (h : fresh log = true → ∃ texts, Routed cfg log text texts) : Carries cfg log [] text := by
  obtain ⟨hfresh, hquiet⟩ := Bool.and_eq_true_iff.mp hfit
  obtain ⟨texts, hrouted⟩ := h hfresh
  have hutterance : utterance log [] = heard log := by
    rw [utterance]
    split
    · exact List.append_nil _
    · exact List.append_nil _
  refine ⟨texts, hrouted.assembled, hrouted.sublist, ?_⟩
  rw [hutterance]
  exact (Bool.or_eq_true_iff.mp hquiet).symm.imp_right hrouted.whole

theorem Turns.abandoned {log : List Entry} (h : Turns cfg log) : Turns cfg (.abandoned :: log) :=
  h.cons nofun nofun

theorem Turns.effect {s s' : App} (h : Turns cfg s.log) (heffect : Effect s s') :
    Turns cfg s'.log := by
  obtain ⟨hlog, -⟩ | ⟨hlog, -⟩ := heffect.log
  · rw [hlog]
    exact h
  · rw [hlog]
    exact h.abandoned

theorem log_handleFinal (s : App) (final : ASRFinal) (had interrupts : Bool) :
    (handleFinal cfg s final had interrupts).log = s.log := by
  rw [handleFinal]
  dsimp only
  split
  · rw [dropFinal]
    split
    · rfl
    · split
      · split <;> rfl
      · rfl
  · split
    · split <;> rfl
    · split <;> rfl

theorem turns_asrFinal {s : App} {final : ASRFinal} {interrupts : Bool} (h : Turns cfg s.log)
    (hcareful : final.isNew cfg = true → unclosed s.log = false) :
    Turns cfg (asrFinal cfg s final interrupts).log := by
  have hlog : Turns cfg (.final final s.outstanding :: s.log) :=
    h.cons nofun fun _ _ heq hnew => by
      cases heq
      exact hcareful hnew
  rw [asrFinal]
  split
  · exact hlog.abandoned
  · dsimp only
    split
    · split
      · exact hlog
      · exact hlog
    · split
      · exact hlog
      · rw [log_handleFinal]
        exact hlog

theorem turns_goOn {s s' : App} {ok : Bool} (h : Turns cfg s.log) (hinv : Inv cfg s)
    (hcareful : Careful cfg s (.goOn ok)) (hstep : goOn cfg s ok = some s') :
    Turns cfg s'.log := by
  have hheld := hinv.held
  rw [Held] at hheld
  rw [Careful] at hcareful
  rw [goOn] at hstep
  have hturn (text : Text) (hfit : fit cfg s.log = true)
      (hway : fresh s.log = true → ∃ texts, Routed cfg s.log text texts) :
      Turns cfg (.turn text :: s.log) := by
    refine h.cons (fun other heq => ?_) nofun
    cases heq
    exact carries_of_routed hfit hway
  split at hstep
  · cases hstep
  · cases hstep
    rw [log_handleFinal]
    exact h
  · cases hstep
    exact h
  · next text hplace =>
    rw [hplace] at hcareful hheld
    split at hstep
    · cases hstep
      exact hturn text hcareful hheld.2
    · split at hstep
      · cases hstep
        exact h
      · cases hstep
        exact hturn text hcareful hheld.2
  · next text hplace =>
    rw [hplace] at hcareful hheld
    cases hstep
    exact hturn text hcareful hheld.2
  · next task _ =>
    obtain rfl : { (task.goOn s ok).1 with place := (task.goOn s ok).2.elim .ready .awaiting } = s' :=
      Option.some_inj.mp hstep
    have hafter : Turns cfg (task.goOn s ok).1.log := h.effect (effect_goOn s ok task)
    exact hafter

/-- **The turns after a careful step.** -/
theorem turns_step {s s' : App} {e : Event} (h : Turns cfg s.log) (hinv : Inv cfg s)
    (hcareful : Careful cfg s e) (hstep : step cfg s e = some s') : Turns cfg s'.log := by
  cases haside : e.aside with
  | true => exact h.effect (effect_step haside hcareful hstep)
  | false =>
    cases e with
    | asrFinal final interrupts =>
      rw [step] at hstep
      split at hstep
      · cases hstep
        exact turns_asrFinal h hcareful
      · cases hstep
    | goOn ok => exact turns_goOn h hinv hcareful hstep
    | bargeInFrame | firstTtsAudio | functionCallDone =>
      rw [step] at hstep
      split at hstep
      · cases hstep
        exact h
      · cases hstep
    | turnDone completion =>
      rw [step] at hstep
      split at hstep
      · obtain rfl : { (completeAssistantTurn s completion).1 with
            place := .awaiting (if (completeAssistantTurn s completion).2 = none then .turnDone
              else .sleep true) } = s' := Option.some_inj.mp hstep
        have hafter : Turns cfg (completeAssistantTurn s completion).1.log :=
          h.effect (effect_completeAssistantTurn s completion)
        exact hafter
      · cases hstep
    | slvError | readerExited replaced =>
      rw [step] at hstep
      split at hstep
      · cases hstep
        exact h.abandoned
      · cases hstep
    | _ => cases haside

/-! ### Runs -/

/-- **Every turn carries its utterance**, in every state that careful steps lead to. -/
theorem whole_of_careful {events : List Event} {s : App}
    (hcareful : (machine cfg).Guarded (Careful cfg) (machine cfg).init events)
    (hrun : (machine cfg).run events = some s) : Whole cfg s.log := by
  have hinv : Inv cfg s ∧ Turns cfg s.log :=
    (machine cfg).invariant_of_guarded (Careful cfg) (P := fun s => Inv cfg s ∧ Turns cfg s.log)
      ⟨inv_init, turns_nil⟩
      (fun _ _ _ h hok hstep => ⟨inv_step h.1 hok hstep, turns_step h.2 h.1 hok hstep⟩)
      hcareful hrun
  exact hinv.2.whole

/-! ### Two runs -/

/-- The default configuration, as far as ASCII goes. -/
def asciiConfig : Config :=
  { tables := V2v.Tts.asciiTables
    isLetterOrNumber := Char.isAlphanum
    lower := List.map Char.toLower
    isStopIntent := fun text => text = "stop".toList
    isExitIntent := fun _ => false
    alwaysOn := true
    clientVadDriveEos := true
    wakeCommandSingleTurn := false
    stopToSleep := false }

/-- Someone speaks, with a pause after the first words. -/
def sentence (first last : String) : List Event :=
  [.speechStarted false false false, .asrFinal ⟨first.toList, false, false⟩ false, .speechEnded,
    .resume 0 true, .resume 0 true, .asrFinal ⟨last.toList, false, false⟩ false, .goOn false]

/-- What a sentence of two segments leads to. -/
def sentenceState (log : List Entry) : App :=
  { state := .thinking
    eosSentThisTurn := false
    pendingAsrUtteranceText := []
    place := .ready
    tasks := []
    outstanding := false
    log := log }

theorem sentence_whole :
    Whole asciiConfig
      [.turn "I want some tea.".toList, .final ⟨"some tea.".toList, false, false⟩ true,
        .final ⟨"I want".toList, false, false⟩ false] := by
  have hrun : (machine asciiConfig).run (sentence "I want" "some tea.") = some (sentenceState
      [.turn "I want some tea.".toList, .final ⟨"some tea.".toList, false, false⟩ true,
        .final ⟨"I want".toList, false, false⟩ false]) := rfl
  exact whole_of_careful (by decide +kernel) hrun

theorem Assembled.length_le {texts : List Text} {text : Text} (h : Assembled cfg texts text) :
    (texts.map fun t => (strip cfg.tables t).length).sum ≤ text.length := by
  induction h with
  | nil => exact Nat.le_refl _
  | single text => simp
  | snoc gap text _ _ _ ih =>
    simp only [List.map_append, List.sum_append, List.map_cons, List.map_nil, List.sum_singleton,
      List.length_append]
    omega

/-- **A short first word is lost**, though the words together are no noise. -/
theorem first_word_lost :
    ¬ ∀ (cfg : Config) (events : List Event) (s : App), cfg.clientVadDriveEos = true →
      (machine cfg).run events = some s → Whole cfg s.log := by
  intro hall
  have hrun : (machine asciiConfig).run (sentence "I" "want some tea.") = some (sentenceState
      [.turn "want some tea.".toList, .final ⟨"want some tea.".toList, false, false⟩ true,
        .final ⟨"I".toList, false, false⟩ false]) := rfl
  obtain ⟨texts, hassembled, hsublist, hlow | hwhole⟩ :=
    hall asciiConfig _ _ rfl hrun [] "want some tea.".toList _ rfl
  · exact absurd hlow (by decide +kernel)
  · have hnews : texts = ["I".toList, "want some tea.".toList] :=
      List.Sublist.antisymm hsublist hwhole
    rw [hnews] at hassembled
    exact absurd hassembled.length_le (by decide +kernel)

end OpenVoiceStream.Agent.Segments
