import OpenVoiceStream.V2v.Realtime.Client

/-!
# The lifecycle of a response

The adapter's stream is not always lawful.  A `tts_sentence_done` that comes
while no response is open is translated with a null `response_id`; a
`mark_direct_speak` made while a response is open is wiped by that response's
end, so the response created next goes untagged; and an engine event of a type
the adapter does not know is passed on whatever it names.

## Main definitions

* `System.machine` — the adapter with the stream it has emitted.
* `System.Fits`, `System.Ok` — the calls that are none of those three.
* `Agree` — what ties the adapter's fields to the client's facts.

## Main results

* `lawful_iff_guarded` — the stream of a run is lawful exactly when every call
  of the run fits.
-/

namespace OpenVoiceStream.V2v.Realtime

/-! ### The runs of the adapter -/

/-- A call of the adapter. -/
inductive Call
  | translate (payload : Dict)
  | markCancelled (reason : String)
  | markDirectSpeak

/-- The adapter with the stream it has emitted so far. -/
structure System where
  adapter : Adapter
  log : List Entry := []
  /-- A direct speak was marked while a response was open, and none since that
  response has ended. -/
  stray : Bool := false

/-- The events as entries of the log. -/
def entries (events : List Event) : List Entry := events.map .event

@[simp] theorem entries_nil : entries [] = [] := rfl

@[simp] theorem entries_cons (e : Event) (events : List Event) :
    entries (e :: events) = .event e :: entries events := rfl

@[simp] theorem entries_append (events more : List Event) :
    entries (events ++ more) = entries events ++ entries more := List.map_append

namespace System

variable (ids : ℕ → String → String) (py : Builtins)

/-- No response is open and the engine event needs one, so one is created. -/
def creates (a : Adapter) (payload : Dict) : Bool :=
  a.activeResponseId.isNone &&
    match kindOf payload with
    | .ttsStarted => true
    | .toolCall => true
    | .ttsDone => !Adapter.sessionComplete payload
    | _ => false

/-- One call, its events appended to the stream. -/
def step (s : System) : Call → System
  | .translate payload =>
    let (a, events) := s.adapter.translate ids py payload
    { adapter := a
      log := s.log ++ entries events
      stray := s.stray && !creates s.adapter payload }
  | .markCancelled reason => { s with adapter := s.adapter.markCancelled reason }
  | .markDirectSpeak =>
    { adapter := s.adapter.markDirectSpeak
      log := s.log ++ [.mark]
      stray := s.adapter.activeResponseId.isSome }

/-- The adapter of one session. -/
def machine : Machine System Call where
  init := { adapter := .new ids }
  step s call := some (s.step ids py call)

/-- The engine events a lawful stream allows: no response is created over a stray
mark, `tts_sentence_done` comes while a response is open, and an event of an
unknown type fits what the client knows. -/
def Fits (a : Adapter) (c : Client) (stray : Bool) (payload : Dict) : Prop :=
  (creates a payload = true → stray = false) ∧
    (kindOf payload = .ttsSentenceDone → a.activeResponseId.isSome) ∧
    (kindOf payload = .extension →
      c.Accepts (.passed (payload.setdefault "event_id" (.str (ids a.drawn "evt")))))

/-- The same for the calls of a run. -/
def Ok (s : System) : Call → Prop
  | .translate payload => Fits ids s.adapter (({} : Client).after s.log) s.stray payload
  | _ => True

end System

/-! ### The adapter and the client -/

section Agree

variable {ids : ℕ → String → String} {py : Builtins} {a a' : Adapter} {c : Client} {stray : Bool}

variable (ids) in
/-- The adapter's fields say what the client knows. -/
structure Agree (a : Adapter) (c : Client) (stray : Bool) : Prop where
  openResponse : c.openResponse = a.activeResponseId
  count : a.activeResponseId.isSome → c.items.length = a.outputItemCount
  closed : a.activeResponseId = none → a.outputItemCount = 0 ∧ a.audioItemAnnounced = false
  announced : a.audioItemAnnounced = true →
    c.items[a.activeAudioOutputIndex]? = some a.activeItemId
  unannounced : a.activeResponseId.isSome → a.audioItemAnnounced = false →
    a.activeItemId ∉ c.items
  /-- Every item id the client has seen was drawn from the factory. -/
  drawn : ∀ item ∈ c.items, ∃ n < a.drawn, ∃ kind, item = some (ids n kind)
  active : a.activeResponseId.isSome →
    ∃ n < a.drawn, ∃ kind, a.activeItemId = some (ids n kind)
  nodup : c.items.Nodup
  marked : c.marked = (stray || (a.activeResponseId.isNone && a.directSpeak))
  strayMark : stray = true → a.activeResponseId = none → a.directSpeak = false

theorem agree_new : Agree ids (.new ids) {} false := by
  constructor <;> simp [Adapter.new]

/-- Fields the client does not see may change, and more ids may be drawn. -/
theorem Agree.congr (h : Agree ids a c stray) (hdrawn : a.drawn ≤ a'.drawn)
    (hresponse : a'.activeResponseId = a.activeResponseId)
    (hitem : a'.activeItemId = a.activeItemId)
    (hannounced : a'.audioItemAnnounced = a.audioItemAnnounced)
    (hindex : a'.activeAudioOutputIndex = a.activeAudioOutputIndex)
    (hcount : a'.outputItemCount = a.outputItemCount)
    (hdirect : a'.directSpeak = a.directSpeak) : Agree ids a' c stray where
  openResponse := by rw [hresponse]; exact h.openResponse
  count := by rw [hresponse, hcount]; exact h.count
  closed := by rw [hresponse, hcount, hannounced]; exact h.closed
  announced := by rw [hannounced, hindex, hitem]; exact h.announced
  unannounced := by rw [hresponse, hannounced, hitem]; exact h.unannounced
  drawn := by
    intro item hmem
    obtain ⟨n, hn, hkind⟩ := h.drawn item hmem
    exact ⟨n, by omega, hkind⟩
  active := by
    rw [hresponse, hitem]
    intro hsome
    obtain ⟨n, hn, hkind⟩ := h.active hsome
    exact ⟨n, by omega, hkind⟩
  nodup := h.nodup
  marked := by rw [hresponse, hdirect]; exact h.marked
  strayMark := by rw [hresponse, hdirect]; exact h.strayMark

/-- An id drawn now is none of those the client has seen. -/
theorem Agree.fresh (hids : ∀ m n j k, ids m j = ids n k → m = n) (h : Agree ids a c stray)
    {n : ℕ} (hn : a.drawn ≤ n) (kind : String) : some (ids n kind) ∉ c.items := by
  intro hmem
  obtain ⟨m, hm, kind', heq⟩ := h.drawn _ hmem
  have := hids _ _ _ _ (Option.some.inj heq)
  omega

/-- The item that was announced has one index. -/
theorem Agree.index_unique (h : Agree ids a c stray) (hopen : a.activeResponseId.isSome) {m : ℕ}
    (hm : c.items[m]? = some a.activeItemId) : m = a.activeAudioOutputIndex := by
  by_cases hann : a.audioItemAnnounced = true
  · have hk := h.announced hann
    have hlt := (List.getElem?_eq_some_iff.mp hm).1
    exact (List.getElem?_inj hlt h.nodup).mp (hm.trans hk.symm)
  · exact absurd (List.mem_of_getElem? hm) (h.unannounced hopen (by simpa using hann))

/-- The client follows the events, and the adapter still says what it knows. -/
def Tracks (ids : ℕ → String → String) (c : Client) (stray : Bool)
    (r : Adapter × List Event) : Prop :=
  c.Follows (entries r.2) ∧ Agree ids r.1 (c.after (entries r.2)) stray

/-- One more event that tells the client nothing new about the response. -/
theorem Tracks.emit {r : Adapter × List Event} (h : Tracks ids c stray r) (body : Body)
    (hsee : ∀ i c', Client.see c' (.event (.emitted i body)) = c')
    (hacc : ∀ i, (c.after (entries r.2)).Accepts (.emitted i body)) :
    Tracks ids c stray ((r.1.emit ids body).1, r.2 ++ [(r.1.emit ids body).2]) := by
  obtain ⟨hfollows, hagree⟩ := h
  constructor
  · rw [entries_append, Client.follows_append]
    exact ⟨hfollows, hacc _, trivial⟩
  · rw [entries_append, Client.after_append]
    change Agree ids _ (Client.see _ _) stray
    rw [Adapter.emit, hsee]
    exact hagree.congr (Nat.le_succ _) rfl rfl rfl rfl rfl rfl

theorem Agree.tracks_nil (h : Agree ids a c stray) : Tracks ids c stray (a, []) := ⟨trivial, h⟩

/-- A response is created where none was open, with the tag the client expects,
unless a stray mark was wiped. -/
theorem Agree.ensureResponseCreated (h : Agree ids a c stray)
    (hst : a.activeResponseId = none → stray = false) :
    Tracks ids c stray (a.ensureResponseCreated ids) ∧
      (a.ensureResponseCreated ids).1.activeResponseId.isSome := by
  rw [Adapter.ensureResponseCreated]
  cases hopen : a.activeResponseId with
  | some id => exact ⟨h.tracks_nil, by simp [hopen]⟩
  | none =>
    have hstray := hst hopen
    have hcl := h.closed hopen
    refine ⟨⟨⟨?_, trivial⟩, ?_⟩, rfl⟩
    · rw [Client.accepts_created, h.openResponse, h.marked]
      simp [hopen, hstray]
    · constructor
      · rfl
      · intro _
        exact hcl.1.symm
      · intro hno
        cases hno
      · intro hann
        simp [Adapter.emit, hcl.2] at hann
      · intro _ _
        exact List.not_mem_nil
      · intro item hmem
        cases hmem
      · intro _
        exact ⟨a.drawn + 1, by simp [Adapter.emit], "item", rfl⟩
      · exact List.nodup_nil
      · simp [Adapter.emit, entries, Client.after, Client.see, hstray]
      · intro htrue
        simp [hstray] at htrue

/-- A stray mark shows in the response created over it. -/
theorem Agree.not_follows_created (h : Agree ids a c true) (hopen : a.activeResponseId = none)
    (more : List Event) :
    ¬ c.Follows (entries ((a.ensureResponseCreated ids).2 ++ more)) := by
  rw [entries_append, Client.follows_append]
  rintro ⟨hfollows, -⟩
  simp only [Adapter.ensureResponseCreated, hopen, Adapter.emit, entries_cons,
    Client.follows_event, Client.accepts_created] at hfollows
  rw [h.marked, h.strayMark rfl hopen] at hfollows
  simp at hfollows

/-- Announcing the audio item begins with what creates the response. -/
theorem ensureAudioItemAdded_snd (ids : ℕ → String → String) (a : Adapter) :
    ∃ more, (a.ensureAudioItemAdded ids).2 = (a.ensureResponseCreated ids).2 ++ more := by
  rw [Adapter.ensureAudioItemAdded]
  cases hann : (a.ensureResponseCreated ids).1.audioItemAnnounced with
  | true => exact ⟨[], by simp [hann]⟩
  | false =>
    simp only [hann, Bool.false_eq_true, if_false]
    exact ⟨[_], rfl⟩

/-- What the client knows once an item was added to the open response. -/
theorem Agree.add (h : Agree ids a c stray) (hopen : a.activeResponseId.isSome)
    {item : Option String} (hnew : item ∉ c.items)
    (hitem : ∃ n < a'.drawn, ∃ kind, item = some (ids n kind)) (hdrawn : a.drawn ≤ a'.drawn)
    (hresponse : a'.activeResponseId = a.activeResponseId)
    (hactive : a'.activeItemId = a.activeItemId)
    (hcount : a'.outputItemCount = a.outputItemCount + 1)
    (hann : a'.audioItemAnnounced = true →
      (c.items ++ [item])[a'.activeAudioOutputIndex]? = some a.activeItemId)
    (hunann : a'.audioItemAnnounced = false →
      a.audioItemAnnounced = false ∧ a.activeItemId ≠ item)
    (hdirect : a'.directSpeak = a.directSpeak) :
    Agree ids a' { c with items := c.items ++ [item] } stray where
  openResponse := by rw [hresponse]; exact h.openResponse
  count := by
    intro _
    rw [List.length_append, h.count hopen, hcount]
    rfl
  closed := by
    intro hno
    rw [hresponse] at hno
    simp [hno] at hopen
  announced := by rw [hactive]; exact hann
  unannounced := by
    intro _ hno
    rw [hactive, List.mem_append, not_or, List.mem_singleton]
    exact ⟨h.unannounced hopen (hunann hno).1, (hunann hno).2⟩
  drawn := by
    intro it hmem
    rcases List.mem_append.mp hmem with hmem | hmem
    · obtain ⟨n, hn, hkind⟩ := h.drawn it hmem
      exact ⟨n, by omega, hkind⟩
    · rw [List.mem_singleton.mp hmem]
      exact hitem
  active := by
    intro _
    rw [hactive]
    obtain ⟨n, hn, hkind⟩ := h.active hopen
    exact ⟨n, by omega, hkind⟩
  nodup := by
    rw [List.nodup_append]
    refine ⟨h.nodup, by simp, ?_⟩
    intro x hx y hy heq
    rw [List.mem_singleton.mp hy] at heq
    exact hnew (heq ▸ hx)
  marked := by rw [hresponse, hdirect]; exact h.marked
  strayMark := by rw [hresponse, hdirect]; exact h.strayMark

/-- The audio item is added once in a response, under the next index. -/
theorem Agree.ensureAudioItemAdded (h : Agree ids a c stray)
    (hst : a.activeResponseId = none → stray = false) :
    Tracks ids c stray (a.ensureAudioItemAdded ids) ∧
      (a.ensureAudioItemAdded ids).1.activeResponseId.isSome := by
  obtain ⟨⟨hfollows, hagree⟩, hopen⟩ := h.ensureResponseCreated hst
  rw [Adapter.ensureAudioItemAdded]
  generalize hr : a.ensureResponseCreated ids = r at hfollows hagree hopen ⊢
  obtain ⟨b, events⟩ := r
  cases hann : b.audioItemAnnounced with
  | true =>
    simp only [hann, if_true]
    exact ⟨⟨hfollows, hagree⟩, hopen⟩
  | false =>
    simp only [hann, Bool.false_eq_true, if_false]
    refine ⟨⟨?_, ?_⟩, hopen⟩
    · rw [entries_append, Client.follows_append]
      refine ⟨hfollows, ?_, trivial⟩
      exact Client.accepts_added hagree.openResponse hopen (hagree.count hopen).symm
    · rw [entries_append, Client.after_append]
      obtain ⟨n, hn, kind, hitem⟩ := hagree.active hopen
      apply hagree.add hopen (hagree.unannounced hopen hann)
      · exact ⟨n, Nat.lt_succ_of_lt hn, kind, hitem⟩
      · exact Nat.le_succ _
      · rfl
      · rfl
      · rfl
      · intro _
        change (_ ++ [b.activeItemId])[b.outputItemCount]? = _
        rw [← hagree.count hopen]
        simp
      · intro hno
        cases hno
      · rfl

/-- `tts_started` is followed. -/
theorem Agree.ttsStarted (h : Agree ids a c stray) (payload : Dict)
    (hst : a.activeResponseId = none → stray = false) :
    Tracks ids c stray (a.ttsStarted ids payload) := by
  obtain ⟨htracks, hopen⟩ := h.ensureAudioItemAdded hst
  apply htracks.emit
  · intro i c'
    rfl
  · intro i
    exact Client.accepts_of_unplaced rfl rfl rfl rfl
      (Client.names_open htracks.2.openResponse hopen)

/-- `tts_sentence_done` is followed while a response is open. -/
theorem Agree.ttsSentenceDone (h : Agree ids a c stray) (payload : Dict)
    (hopen : a.activeResponseId.isSome) :
    Tracks ids c stray (a.ttsSentenceDone ids py payload) := by
  have hbegin : Agree ids
      { a with activeTranscript := a.activeTranscript ++
        [py.str ((payload.get "sentence").or (.str ""))] } c stray :=
    h.congr (Nat.le_refl _) rfl rfl rfl rfl rfl rfl
  have hdelta := hbegin.tracks_nil.emit
    (.audioTranscriptDelta a.activeResponseId a.activeItemId a.activeAudioOutputIndex
      (py.str ((payload.get "sentence").or (.str "")))) (fun _ _ => rfl) (fun _ =>
      Client.accepts_of_placed rfl rfl rfl rfl rfl h.openResponse hopen
        fun m hm => h.index_unique hopen hm)
  apply hdelta.emit
  · intro i c'
    rfl
  · intro i
    exact Client.accepts_of_unplaced rfl rfl rfl rfl
      (Client.names_open hdelta.2.openResponse hopen)

/-- With no response open, the client refuses its null `response_id`. -/
theorem Agree.not_follows_ttsSentenceDone (payload : Dict) (hopen : a.activeResponseId = none) :
    ¬ c.Follows (entries (a.ttsSentenceDone ids py payload).2) := by
  intro hfollows
  obtain ⟨id, -, hid⟩ := hfollows.1.within (.ofId a.activeResponseId) rfl
  rw [hopen] at hid
  cases hid

/-- Two parts of a stream, one after the other. -/
theorem Tracks.append {r r' : Adapter × List Event} (h : Tracks ids c stray r)
    (h' : Tracks ids (c.after (entries r.2)) stray r') :
    Tracks ids c stray (r'.1, r.2 ++ r'.2) := by
  constructor
  · rw [entries_append, Client.follows_append]
    exact ⟨h.1, h'.1⟩
  · rw [entries_append, Client.after_append]
    exact h'.2

/-- The audio item is ended under the index it was added with. -/
theorem Agree.finishAudio (h : Agree ids a c stray) (hopen : a.activeResponseId.isSome) :
    Tracks ids c stray (a.finishAudio ids (a.activeResponseId.getD "")) ∧
      (a.finishAudio ids (a.activeResponseId.getD "")).1.activeResponseId = a.activeResponseId := by
  have hid : some (Value.str (a.activeResponseId.getD "")) =
      some (Value.ofId a.activeResponseId) := by
    obtain ⟨id, hid⟩ := Option.isSome_iff_exists.mp hopen
    rw [hid]
    rfl
  rw [Adapter.finishAudio]
  cases hann : a.audioItemAnnounced with
  | false => exact ⟨h.tracks_nil, rfl⟩
  | true =>
    have hplace := fun m hm => h.index_unique hopen (m := m) hm
    have htranscript := h.tracks_nil.emit
      (.audioTranscriptDone (a.activeResponseId.getD "") a.activeItemId
        a.activeAudioOutputIndex (String.join a.activeTranscript)) (fun _ _ => rfl) fun _ =>
        Client.accepts_of_placed rfl rfl rfl rfl hid h.openResponse hopen hplace
    have haudio := htranscript.emit
      (.audioDone (a.activeResponseId.getD "") a.activeItemId a.activeAudioOutputIndex)
      (fun _ _ => rfl) fun _ =>
        Client.accepts_of_placed rfl rfl rfl rfl hid h.openResponse hopen hplace
    exact ⟨haudio, rfl⟩

/-- The open response is done, and the adapter is as it was before it. -/
theorem Tracks.finish {r : Adapter × List Event} (h : Tracks ids c stray r) {id : String}
    (hopen : r.1.activeResponseId = some id) {status : Status}
    {details : Option (String × String)} :
    Tracks ids c stray ((r.1.emit ids (.responseDone id status details)).1.reset,
      r.2 ++ [(r.1.emit ids (.responseDone id status details)).2]) := by
  obtain ⟨hfollows, hagree⟩ := h
  constructor
  · rw [entries_append, Client.follows_append]
    refine ⟨hfollows, ?_, trivial⟩
    exact Client.accepts_done.mpr (hagree.openResponse.trans hopen)
  · rw [entries_append, Client.after_append]
    constructor
    · rfl
    · intro hsome
      cases hsome
    · intro _
      exact ⟨rfl, rfl⟩
    · intro hann
      cases hann
    · intro hsome
      cases hsome
    · intro item hmem
      obtain ⟨n, hn, hkind⟩ := hagree.drawn item hmem
      exact ⟨n, Nat.lt_succ_of_lt hn, hkind⟩
    · intro hsome
      cases hsome
    · exact hagree.nodup
    · -- a mark made during the response is wiped, and stays the client's to expect
      have hmarked := hagree.marked
      rw [hopen] at hmarked
      simpa [Adapter.reset, entries, Client.after, Client.see, Adapter.emit] using hmarked
    · intro _ _
      rfl

/-- The end of a response is followed, one that is created for it included. -/
theorem Agree.finishResponse (h : Agree ids a c stray)
    (hst : a.activeResponseId = none → stray = false) :
    Tracks ids c stray (a.finishResponse ids) := by
  obtain ⟨htracks, hopen⟩ := h.ensureResponseCreated hst
  obtain ⟨haudio, hsame⟩ := htracks.2.finishAudio hopen
  have hid : (a.ensureResponseCreated ids).1.activeResponseId =
      some ((a.ensureResponseCreated ids).1.activeResponseId.getD "") := by
    obtain ⟨id, hid⟩ := Option.isSome_iff_exists.mp hopen
    rw [hid]
    rfl
  exact (htracks.append haudio).finish (hsame.trans hid)

/-- A new item at the end of a list stands at no other place. -/
theorem place_of_new {items : List (Option String)} {item : Option String} (hnew : item ∉ items)
    {m : ℕ} (hm : (items ++ [item])[m]? = some item) : m = items.length := by
  rcases Nat.lt_or_ge m items.length with hlt | hge
  · rw [List.getElem?_append_left hlt] at hm
    exact absurd (List.mem_of_getElem? hm) hnew
  · rw [List.getElem?_append_right hge] at hm
    have := (List.getElem?_eq_some_iff.mp hm).1
    rw [List.length_singleton] at this
    omega

/-- A function call is an item of its own, under the next index. -/
theorem Tracks.functionCall (hids : ∀ m n j k, ids m j = ids n k → m = n)
    {r : Adapter × List Event} (h : Tracks ids c stray r) (hopen : r.1.activeResponseId.isSome)
    (callId : String) (name : Value) :
    Tracks ids c stray
      ((({ r.1 with
          drawn := r.1.drawn + 1
          outputItemCount := r.1.outputItemCount + 1 } : Adapter).emit ids
        (.outputItemAdded r.1.activeResponseId r.1.outputItemCount
          (.functionCall (ids r.1.drawn "item") callId name))).1,
        r.2 ++ [.emitted (ids (r.1.drawn + 1) "evt")
          (.outputItemAdded r.1.activeResponseId r.1.outputItemCount
            (.functionCall (ids r.1.drawn "item") callId name))]) := by
  obtain ⟨hfollows, hagree⟩ := h
  have hnew := hagree.fresh hids (Nat.le_refl _) "item"
  constructor
  · rw [entries_append, Client.follows_append]
    refine ⟨hfollows, ?_, trivial⟩
    exact Client.accepts_added hagree.openResponse hopen (hagree.count hopen).symm
  · rw [entries_append, Client.after_append]
    apply hagree.add hopen hnew
    · exact ⟨r.1.drawn, by simp only [Adapter.emit]; omega, "item", rfl⟩
    · simp only [Adapter.emit]; omega
    · rfl
    · rfl
    · rfl
    · intro hann
      have hk := hagree.announced hann
      exact (List.getElem?_append_left (List.getElem?_eq_some_iff.mp hk).1).trans hk
    · intro hann
      refine ⟨hann, ?_⟩
      obtain ⟨n, hn, kind, hitem⟩ := hagree.active hopen
      intro heq
      rw [hitem] at heq
      have := hids _ _ _ _ (Option.some.inj heq)
      omega
    · rfl

/-- `tool_call` is followed. -/
theorem Agree.toolCall (hids : ∀ m n j k, ids m j = ids n k → m = n) (h : Agree ids a c stray)
    (payload : Dict) (hst : a.activeResponseId = none → stray = false) :
    Tracks ids c stray (a.toolCall ids py payload) := by
  obtain ⟨htracks, hopen⟩ := h.ensureResponseCreated hst
  have hadded := htracks.functionCall hids hopen
    (py.str (((payload.get "call_id").or (payload.get "id")).or (.str "")))
    (payload.getD "name" (.str ""))
  have hdone := hadded.emit
    (.functionCallArgumentsDone (a.ensureResponseCreated ids).1.activeResponseId
      (ids (a.ensureResponseCreated ids).1.drawn "item")
      (a.ensureResponseCreated ids).1.outputItemCount
      (py.str (((payload.get "call_id").or (payload.get "id")).or (.str "")))
      (payload.getD "name" (.str "")) (Adapter.argumentsJson py (payload.get "arguments"))
      (payload.getD "timeout_s" (.float 15))) (fun _ _ => rfl) (fun _ => ?_)
  · rw [List.append_assoc] at hdone
    exact hdone
  · have hplace : some (Value.str (ids (a.ensureResponseCreated ids).1.drawn "item"),
        Value.int (a.ensureResponseCreated ids).1.outputItemCount) =
        some (Value.ofId (some (ids (a.ensureResponseCreated ids).1.drawn "item")),
          Value.int (a.ensureResponseCreated ids).1.outputItemCount) := rfl
    refine Client.accepts_of_placed rfl rfl rfl hplace rfl hadded.2.openResponse hopen ?_
    intro m hm
    rw [entries_append, Client.after_append] at hm
    rw [← htracks.2.count hopen]
    exact place_of_new (htracks.2.fresh hids (Nat.le_refl _) "item") hm

/-- Events about the user's input, and errors: they concern no response. -/
def Body.unscoped : Body → Bool
  | .speechStarted _ => true
  | .speechStopped _ => true
  | .committed _ => true
  | .transcriptionDelta _ _ _ => true
  | .transcriptionCompleted _ _ _ => true
  | .error _ => true
  | _ => false

theorem Agree.tracks_unscoped (h : Agree ids a c stray) (body : Body)
    (hbody : body.unscoped = true) :
    Tracks ids c stray ((a.emit ids body).1, [(a.emit ids body).2]) := by
  apply h.tracks_nil.emit
  · intro i c'
    cases body <;> first | rfl | cases hbody
  · intro i
    have hno : (Event.emitted i body).created = none ∧ (Event.emitted i body).done = none ∧
        (Event.emitted i body).added = none ∧ (Event.emitted i body).place = none ∧
        (Event.emitted i body).responseId = none := by
      cases body <;> first | exact ⟨rfl, rfl, rfl, rfl, rfl⟩ | cases hbody
    obtain ⟨hcreated, hdone, hadded, hplace, hresponse⟩ := hno
    apply Client.accepts_of_unplaced hcreated hdone hadded hplace
    intro v hv
    rw [hresponse] at hv
    cases hv

/-- A new input item is none of the client's concerns. -/
theorem Agree.newInput (h : Agree ids a c stray) (n : ℕ) (item : Option String) :
    Agree ids { a with drawn := a.drawn + n, inputItemId := item } c stray :=
  h.congr (Nat.le_add_right _ _) rfl rfl rfl rfl rfl rfl

theorem Agree.ensureInputItem (h : Agree ids a c stray) :
    Agree ids (a.ensureInputItem ids) c stray := by
  rw [Adapter.ensureInputItem]
  split
  · exact h.newInput 1 _
  · exact h

theorem Agree.vadEvent (h : Agree ids a c stray) (payload : Dict) :
    Tracks ids c stray (a.vadEvent ids payload) := by
  rw [Adapter.vadEvent]
  cases Adapter.speechStarts payload with
  | true => exact (h.newInput 1 _).tracks_unscoped (.speechStarted _) rfl
  | false => exact h.tracks_unscoped (.speechStopped _) rfl

theorem Agree.asrEndpoint (h : Agree ids a c stray) : Tracks ids c stray (a.asrEndpoint ids) :=
  h.ensureInputItem.tracks_unscoped _ rfl

theorem Agree.asrPartial (h : Agree ids a c stray) (payload : Dict) :
    Tracks ids c stray (a.asrPartial ids payload) :=
  h.ensureInputItem.tracks_unscoped _ rfl

theorem Agree.asrFinal (h : Agree ids a c stray) (payload : Dict) :
    Tracks ids c stray (a.asrFinal ids payload) := by
  obtain ⟨hfollows, hagree⟩ := h.ensureInputItem.tracks_unscoped
    (.transcriptionCompleted (a.ensureInputItem ids).inputItemId
      (payload.getD "text" (.str ""))
      (if (payload.get "language").truthy then some (payload.get "language") else none)) rfl
  exact ⟨hfollows, hagree.newInput 0 none⟩

theorem Agree.error (h : Agree ids a c stray) (payload : Dict) :
    Tracks ids c stray (a.error ids py payload) :=
  h.tracks_unscoped _ rfl

theorem Agree.pass (h : Agree ids a c stray) {payload : Dict}
    (hacc : c.Accepts (.passed (payload.setdefault "event_id" (.str (ids a.drawn "evt"))))) :
    Tracks ids c stray (a.pass ids payload) :=
  ⟨⟨hacc, trivial⟩, h.congr (Nat.le_succ _) rfl rfl rfl rfl rfl rfl⟩

/-- **One engine event.**  It is followed if it fits, and the adapter says then
again what the client knows. -/
theorem Agree.translate (py : Builtins) (hids : ∀ m n j k, ids m j = ids n k → m = n)
    (h : Agree ids a c stray) {payload : Dict} (hcanonical : kindOf payload ≠ .canonical)
    (hfits : System.Fits ids a c stray payload) :
    Tracks ids c stray (a.translate ids py payload) := by
  obtain ⟨hcreates, hsentence, hextension⟩ := hfits
  have hst : kindOf payload = .ttsStarted ∨ kindOf payload = .toolCall →
      a.activeResponseId = none → stray = false := by
    rintro (hkind | hkind) hopen
    · exact hcreates (by simp [System.creates, hkind, hopen])
    · exact hcreates (by simp [System.creates, hkind, hopen])
  rw [Adapter.translate]
  cases hkind : kindOf payload with
  | canonical => exact absurd hkind hcanonical
  | ttsStarted => exact h.ttsStarted payload (hst (.inl hkind))
  | ttsSentenceDone => exact h.ttsSentenceDone payload (hsentence hkind)
  | ttsDone =>
    change Tracks ids c stray (a.ttsDone ids payload)
    rw [Adapter.ttsDone]
    split
    · exact h.tracks_nil
    · rename_i hfinish
      apply h.finishResponse
      intro hopen
      exact hcreates (by simpa [System.creates, hkind, hopen] using hfinish)
  | vadEvent => exact h.vadEvent payload
  | asrEndpoint => exact h.asrEndpoint
  | asrPartial => exact h.asrPartial payload
  | asrFinal => exact h.asrFinal payload
  | toolCall => exact h.toolCall hids payload (hst (.inr hkind))
  | error => exact h.error payload
  | extension => exact h.pass (hextension hkind)

/-- An engine event whose translation is followed fits. -/
theorem Agree.fits_of_follows (h : Agree ids a c stray) {payload : Dict}
    (hfollows : c.Follows (entries (a.translate ids py payload).2)) :
    System.Fits ids a c stray payload := by
  rw [Adapter.translate] at hfollows
  refine ⟨?_, ?_, ?_⟩
  · intro hcreates
    by_contra hstray
    rw [Bool.not_eq_false] at hstray
    subst hstray
    rw [System.creates, Bool.and_eq_true, Option.isNone_iff_eq_none] at hcreates
    obtain ⟨hopen, hcreates⟩ := hcreates
    cases hkind : kindOf payload with
    | ttsStarted =>
      rw [hkind] at hfollows
      obtain ⟨more, hmore⟩ := ensureAudioItemAdded_snd ids a
      change c.Follows (entries ((a.ensureAudioItemAdded ids).2 ++ [_])) at hfollows
      rw [hmore, List.append_assoc] at hfollows
      exact h.not_follows_created hopen _ hfollows
    | toolCall =>
      rw [hkind] at hfollows
      exact h.not_follows_created hopen _ hfollows
    | ttsDone =>
      rw [hkind] at hfollows hcreates
      change c.Follows (entries (a.ttsDone ids payload).2) at hfollows
      rw [Adapter.ttsDone, if_neg (by simpa [hopen] using hcreates)] at hfollows
      change c.Follows (entries (_ ++ _ ++ [_])) at hfollows
      rw [List.append_assoc] at hfollows
      exact h.not_follows_created hopen _ hfollows
    | _ => simp [hkind] at hcreates
  · intro hkind
    rw [hkind] at hfollows
    by_contra hopen
    exact Agree.not_follows_ttsSentenceDone payload (by simpa using hopen) hfollows
  · intro hkind
    rw [hkind] at hfollows
    exact hfollows.1

end Agree

/-! ### Runs -/

section Runs

variable {ids : ℕ → String → String} {py : Builtins} {s s' t : System} {calls : List Call}

/-- The client has followed the stream so far, and the adapter says what it knows. -/
def System.Inv (ids : ℕ → String → String) (s : System) : Prop :=
  Lawful s.log ∧ Agree ids s.adapter (({} : Client).after s.log) s.stray

theorem inv_init : System.Inv ids (System.machine ids py).init := ⟨trivial, agree_new⟩

/-- A call only adds to the stream. -/
theorem step_log (ids : ℕ → String → String) (py : Builtins) (s : System) (call : Call) :
    ∃ more, (s.step ids py call).log = s.log ++ more := by
  cases call with
  | translate payload => exact ⟨_, rfl⟩
  | markCancelled reason => exact ⟨[], (List.append_nil _).symm⟩
  | markDirectSpeak => exact ⟨_, rfl⟩

/-- What a run has emitted stays lawful only if it was. -/
theorem lawful_of_runFrom (hrun : (System.machine ids py).runFrom s calls = some t)
    (hlawful : Lawful t.log) : Lawful s.log := by
  induction calls generalizing s with
  | nil =>
    rw [Machine.runFrom_nil, Option.some_inj] at hrun
    exact hrun ▸ hlawful
  | cons call calls ih =>
    obtain ⟨s', hstep, hrun⟩ := (System.machine ids py).runFrom_cons_eq_some.mp hrun
    obtain rfl := Option.some.inj hstep
    obtain ⟨more, hmore⟩ := step_log ids py s call
    have := ih hrun
    rw [hmore] at this
    exact (Client.follows_append.mp this).1

/-- A mark is the client's to expect with the next response. -/
theorem Agree.markDirectSpeak {a : Adapter} {c : Client} {stray : Bool}
    (h : Agree ids a c stray) :
    Agree ids a.markDirectSpeak (c.see .mark) a.activeResponseId.isSome where
  openResponse := h.openResponse
  count := h.count
  closed := h.closed
  announced := h.announced
  unannounced := h.unannounced
  drawn := h.drawn
  active := h.active
  nodup := h.nodup
  marked := by
    cases hopen : a.activeResponseId <;> simp [Client.see, Adapter.markDirectSpeak, hopen]
  strayMark := by
    intro hsome hnone
    have hopen : a.activeResponseId = none := hnone
    rw [hopen] at hsome
    cases hsome

theorem Agree.markCancelled {a : Adapter} {c : Client} {stray : Bool}
    (h : Agree ids a c stray) (reason : String) : Agree ids (a.markCancelled reason) c stray := by
  rw [Adapter.markCancelled]
  split
  · exact h.congr (Nat.le_refl _) rfl rfl rfl rfl rfl rfl
  · exact h

/-- **The step lemma.**  A call that fits keeps the stream lawful, a call that
does not fit ends that. -/
theorem step_lawful_iff (py : Builtins) (hids : ∀ m n j k, ids m j = ids n k → m = n)
    (h : s.Inv ids) {call : Call}
    (hcanonical : ∀ payload, call = .translate payload → kindOf payload ≠ .canonical) :
    (s.Ok ids call → (s.step ids py call).Inv ids) ∧
      (Lawful (s.step ids py call).log → s.Ok ids call) := by
  obtain ⟨hlawful, hagree⟩ := h
  cases call with
  | translate payload =>
    refine ⟨fun hfits => ?_, fun hfollows => ?_⟩
    · obtain ⟨hfollows, hagree'⟩ := hagree.translate py hids (hcanonical payload rfl) hfits
      refine ⟨Client.follows_append.mpr ⟨hlawful, hfollows⟩, ?_⟩
      have hstray : (s.stray && !System.creates s.adapter payload) = s.stray := by
        cases hcreates : System.creates s.adapter payload with
        | false => simp
        | true => simp [hfits.1 hcreates]
      rw [← Client.after_append] at hagree'
      simpa only [System.step, hstray] using hagree'
    · exact hagree.fits_of_follows (Client.follows_append.mp hfollows).2
  | markCancelled reason =>
    exact ⟨fun _ => ⟨hlawful, hagree.markCancelled reason⟩, fun _ => trivial⟩
  | markDirectSpeak =>
    refine ⟨fun _ => ⟨Client.follows_append.mpr ⟨hlawful, trivial⟩, ?_⟩, fun _ => trivial⟩
    change Agree ids _ (({} : Client).after (s.log ++ [.mark])) _
    rw [Client.after_append]
    exact hagree.markDirectSpeak

/-- **The run lemma**, from any state the client has followed the adapter to. -/
theorem lawful_iff_guarded_from (hids : ∀ m n j k, ids m j = ids n k → m = n) (h : s.Inv ids)
    (hcanonical : ∀ payload, .translate payload ∈ calls → kindOf payload ≠ .canonical)
    (hrun : (System.machine ids py).runFrom s calls = some t) :
    Lawful t.log ↔ (System.machine ids py).Guarded (fun s call => s.Ok ids call) s calls := by
  induction calls generalizing s with
  | nil =>
    rw [Machine.runFrom_nil, Option.some_inj] at hrun
    subst hrun
    simpa using h.1
  | cons call calls ih =>
    obtain ⟨s', hstep, hrun⟩ := (System.machine ids py).runFrom_cons_eq_some.mp hrun
    obtain rfl := Option.some.inj hstep
    obtain ⟨hok, hnot⟩ := step_lawful_iff py hids h
      (fun payload (hcall : call = .translate payload) => hcanonical payload (by simp [hcall]))
    have hrest := fun hinv => ih hinv (fun payload hmem =>
      hcanonical payload (List.mem_cons_of_mem _ hmem)) hrun
    rw [Machine.guarded_cons]
    constructor
    · intro hlawful
      have hcall := hnot (lawful_of_runFrom hrun hlawful)
      refine ⟨hcall, fun s'' hs'' => ?_⟩
      obtain rfl := Option.some.inj hs''
      exact (hrest (hok hcall)).mp hlawful
    · rintro ⟨hcall, hguarded⟩
      exact (hrest (hok hcall)).mpr (hguarded _ rfl)

/-- **The lifecycle.**  With an id factory that never repeats, and no engine event
already in canonical form, the stream of a run is lawful exactly when every call
fits in the state it is made in. -/
theorem lawful_iff_guarded (hids : ∀ m n j k, ids m j = ids n k → m = n)
    (hcanonical : ∀ payload, .translate payload ∈ calls → kindOf payload ≠ .canonical)
    (hrun : (System.machine ids py).run calls = some t) :
    Lawful t.log ↔ (System.machine ids py).Guarded (fun s call => s.Ok ids call)
      (System.machine ids py).init calls :=
  lawful_iff_guarded_from hids inv_init hcanonical hrun

/-- An id factory that counts its calls in unary. -/
def unaryIds (n : ℕ) (kind : String) : String :=
  String.ofList (List.replicate n '1' ++ '_' :: kind.toList)

theorem unaryIds_injective (m n : ℕ) (j k : String) (h : unaryIds m j = unaryIds n k) : m = n := by
  have hlists := String.ofList_injective h
  have hcount := congrArg (fun l => (l.takeWhile (· == '1')).length) hlists
  simpa [List.takeWhile_append_of_pos] using hcount

/-- An engine event of the given type about one sentence. -/
def sentencePayload (typ : String) : Dict := [("type", .str typ), ("sentence", .str "hello")]

theorem lawful_iff_guarded_turn :
    ∃ t, (System.machine unaryIds .plain).run
        [.markDirectSpeak, .translate (sentencePayload serverTtsStarted),
          .translate (sentencePayload serverTtsSentenceDone),
          .translate (sentencePayload serverTtsDone)] = some t ∧
      (Lawful t.log ↔ (System.machine unaryIds .plain).Guarded
        (fun s call => s.Ok unaryIds call) { adapter := .new unaryIds }
        [.markDirectSpeak, .translate (sentencePayload serverTtsStarted),
          .translate (sentencePayload serverTtsSentenceDone),
          .translate (sentencePayload serverTtsDone)]) := by
  refine ⟨_, rfl, lawful_iff_guarded unaryIds_injective ?_ rfl⟩
  intro payload hmem
  simp only [List.mem_cons, Call.translate.injEq, List.not_mem_nil, or_false, reduceCtorEq,
    false_or] at hmem
  rcases hmem with rfl | rfl | rfl <;> decide

/-- A sentence that is done after its response has ended names no response, and a
mark made during a response is lost on the next one. -/
theorem unlawful_late_sentence_and_lost_mark :
    (∃ t, (System.machine unaryIds .plain).run
        [.translate (sentencePayload serverTtsStarted),
          .translate (sentencePayload serverTtsDone),
          .translate (sentencePayload serverTtsSentenceDone)] = some t ∧ ¬ Lawful t.log) ∧
    ∃ t, (System.machine unaryIds .plain).run
        [.translate (sentencePayload serverTtsStarted), .markDirectSpeak,
          .translate (sentencePayload serverTtsDone),
          .translate (sentencePayload serverTtsStarted)] = some t ∧ ¬ Lawful t.log := by
  refine ⟨⟨_, rfl, ?_⟩, ⟨_, rfl, ?_⟩⟩
  · rintro ⟨-, -, -, -, -, -, hdelta, -⟩
    obtain ⟨id, hopen, -⟩ := hdelta.within .none rfl
    cases hopen
  · rintro ⟨-, -, -, -, -, -, hcreated, -⟩
    have htag : false = true := hcreated.tagged _ _ rfl
    cases htag

end Runs

end OpenVoiceStream.V2v.Realtime
