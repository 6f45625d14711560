import OpenVoiceStream.SparkVoices.Registry.Reading

/-!
# The directory holds the registered voices

Between two calls the directory holds the pairs of the registered voices, and perhaps a
transaction directory that a call left which raised; the next call removes it. Recovery
finds no journal: a profile may be named like one, and may even say what a journal says,
but the directory it would have to name is one whose token nobody knew.

## Main definitions

* `Quiet` — an object that recovery passes over.
* `Holds` — the invariant.

## Main results

* `Holds.recover` — recovery removes what a call left, and nothing else.
* `Holds.put_pair`, `Holds.erase_pair` — the voices after a register and after a delete.
-/

namespace OpenVoiceStream.SparkVoices.Registry

variable {env : Env} {tokens : List Token} {token : Token} {d : Dir} {m : Voices}

/-- An object that recovery does not act on: it has no token, or it names none of these
transaction directories. -/
def Quiet (env : Env) (tokens : List Token) (data : Dict) : Prop :=
  env.str ((data.get "token").or (.str "")) = "" ∨ ∀ token ∈ tokens, txName env data ≠ txDir token

/-- The directory holds the pairs of the voices, and besides them at most transaction
directories of these tokens. -/
structure Holds (env : Env) (tokens : List Token) (d : Dir) (m : Voices) : Prop where
  pair : ∀ id v, m.get id = some v → ∃ safe data arrays, safeText id = some safe ∧
    d.get (jsonName safe) = some (.file (.json data)) ∧
    d.get (npzName safe) = some (.file (.npz arrays)) ∧ Written env id v safe data arrays
  only : ∀ name node, d.get name = some node →
    (∃ id v safe, m.get id = some v ∧ safeText id = some safe ∧
      (name = jsonName safe ∨ name = npzName safe)) ∨
    node = .dir ∧ ∃ token ∈ tokens, name = txDir token
  quiet : ∀ name data, loadJson d name = some data → Quiet env tokens data
  /-- No voice is named like a transaction directory. -/
  free : ∀ id v, m.get id = some v → ∀ token ∈ tokens, safeText id ≠ some (txDir token)

/-- No transaction directory is left. -/
def Clean (d : Dir) : Prop := ∀ name, d.get name ≠ some .dir

theorem loadJson_of_get {name : Text} {data : Dict} (h : d.get name = some (.file (.json data))) :
    loadJson d name = some data := by
  rw [loadJson, h]

theorem npLoad_of_get {name : Text} {arrays : Arrays}
    (h : d.get name = some (.file (.npz arrays))) : npLoad d name = some arrays := by
  rw [npLoad, h]

theorem present_of_get {name : Text} {node : Node} (h : d.get name = some node) :
    present d name = true := by
  rw [present, h]
  rfl

theorem present_eq_false {name : Text} : present d name = false ↔ d.get name = none := by
  rw [present, Option.isSome_eq_false_iff, Option.isNone_iff_eq_none]

namespace Holds

variable (h : Holds env tokens d m)

include h

/-- Two registered ids have two safe ids. -/
theorem id_unique {id id' : String} {v v' : Voice} (hv : m.get id = some v)
    (hv' : m.get id' = some v') (hsafe : safeText id = safeText id') : id = id' := by
  obtain ⟨safe, data, arrays, hs, hjson, -, hwritten⟩ := h.pair id v hv
  obtain ⟨safe', data', arrays', hs', hjson', -, hwritten'⟩ := h.pair id' v' hv'
  rw [hs, hs', Option.some_inj] at hsafe
  subst hsafe
  rw [hjson, Option.some_inj, Node.file.injEq, Content.json.injEq] at hjson'
  subst hjson'
  have hid := hwritten.voiceId
  rw [hwritten'.voiceId, Value.str.injEq] at hid
  exact hid.symm

/-- The file names of a safe id are there only where an id of it is registered. -/
theorem voice_of_json {safe : Text} {node : Node} (hget : d.get (jsonName safe) = some node) :
    ∃ id v, m.get id = some v ∧ safeText id = some safe := by
  rcases h.only _ _ hget with ⟨id, v, safe', hv, hsafe, hname⟩ | ⟨-, token, -, hname⟩
  · rcases hname with hname | hname
    · exact ⟨id, v, hv, by rw [hsafe, jsonName_inj.mp hname]⟩
    · exact absurd hname jsonName_ne_npzName
  · exact absurd hname.symm txDir_ne_jsonName

theorem voice_of_npz {safe : Text} {node : Node} (hget : d.get (npzName safe) = some node) :
    ∃ id v, m.get id = some v ∧ safeText id = some safe := by
  rcases h.only _ _ hget with ⟨id, v, safe', hv, hsafe, hname⟩ | ⟨-, token, -, hname⟩
  · rcases hname with hname | hname
    · exact absurd hname.symm jsonName_ne_npzName
    · exact ⟨id, v, hv, by rw [hsafe, npzName_inj.mp hname]⟩
  · exact absurd hname.symm txDir_ne_npzName

/-- A directory is a transaction directory. -/
theorem txDir_of_dir {name : Text} (hget : d.get name = some .dir) :
    ∃ token ∈ tokens, name = txDir token := by
  rcases h.only _ _ hget with ⟨id, v, safe, hv, hsafe, hname⟩ | ⟨-, htoken⟩
  · obtain ⟨safe', data, arrays, hs, hjson, hnpz, -⟩ := h.pair id v hv
    obtain rfl : safe = safe' := Option.some_inj.mp (hsafe.symm.trans hs)
    rcases hname with rfl | rfl
    · rw [hjson] at hget
      cases hget
    · rw [hnpz] at hget
      cases hget
  · exact htoken

/-- No profile is in the place of a journal. -/
theorem journal_none (htoken : token ∈ tokens) : d.get (journalName token) = none := by
  rcases hget : d.get (journalName token) with _ | node
  · rfl
  · obtain ⟨id, v, hv, hsafe⟩ := h.voice_of_json hget
    exact absurd hsafe (h.free id v hv token htoken)

/-! ### Recovery -/

/-- **No profile is read as a journal.** -/
theorem recoverTransaction_eq (journal : Text) : recoverTransaction env d journal = d := by
  unfold recoverTransaction
  split
  · rfl
  · next data hdata =>
    split
    · rfl
    · split
      · rfl
      · next htoken =>
        dsimp only
        split
        · rfl
        · split
          · next hdir =>
            -- the directory is one of ours, and the object would have to name it
            obtain ⟨token, hmem, hname⟩ := h.txDir_of_dir hdir
            rcases h.quiet _ _ hdata with hempty | hquiet
            · exact absurd (.inl hempty) htoken
            · exact absurd hname (hquiet token hmem)
          · rfl

theorem recover_eq : recover env d = (d.items.map Prod.fst).foldl removeOrphan d := by
  have hfixed : (journals d).foldl (recoverTransaction env) d = d :=
    List.foldl_fixed' (fun journal => h.recoverTransaction_eq journal) _
  unfold recover
  dsimp only
  rw [hfixed]

/-- A transaction directory is an orphan. -/
theorem removeOrphan_dir {name : Text} (hget : d.get name = some .dir) :
    removeOrphan d name = d.erase name := by
  obtain ⟨token, htoken, rfl⟩ := h.txDir_of_dir hget
  have hpre : txnPrefix <+: txDir token := List.prefix_append _ _
  have hsuf : ¬ jsonSuffix <:+ txDir token := by
    rintro ⟨rest, hrest⟩
    have hne : txDir token ≠ jsonName rest := txDir_ne_jsonName
    exact hne hrest.symm
  have hnone : present d (jsonName (txDir token)) = false :=
    present_eq_false.mpr (h.journal_none htoken)
  unfold removeOrphan
  rw [hget]
  dsimp only
  rw [if_neg (by rintro (hno | hno); exacts [hno hpre, hsuf hno]), hnone]
  rfl

omit h in
theorem removeOrphan_of_ne {name : Text} (hget : d.get name ≠ some .dir) :
    removeOrphan d name = d := by
  unfold removeOrphan
  split
  · next hdir => exact absurd hdir hget
  · rfl

/-- A transaction directory comes or goes, and the directory holds the same voices. -/
theorem of_txDir {d' : Dir} (htoken : token ∈ tokens)
    (hdir : ∀ node, d'.get (txDir token) = some node → node = .dir)
    (hget : ∀ name, name ≠ txDir token → d'.get name = d.get name) : Holds env tokens d' m := by
  refine ⟨?_, ?_, ?_, h.free⟩
  · intro id v hv
    obtain ⟨safe, data, arrays, hs, hjson, hnpz, hwritten⟩ := h.pair id v hv
    refine ⟨safe, data, arrays, hs, ?_, ?_, hwritten⟩
    · rw [hget _ txDir_ne_jsonName.symm, hjson]
    · rw [hget _ txDir_ne_npzName.symm, hnpz]
  · intro name node hnode
    by_cases hname : name = txDir token
    · subst hname
      exact .inr ⟨hdir node hnode, token, htoken, rfl⟩
    · exact h.only name node (hget name hname ▸ hnode)
  · intro name data hdata
    by_cases hname : name = txDir token
    · subst hname
      unfold loadJson at hdata
      split at hdata
      · next hjson => cases hdir _ hjson
      · cases hdata
    · rw [loadJson, hget name hname] at hdata
      exact h.quiet name data hdata

theorem erase_dir {name : Text} (hget : d.get name = some .dir) :
    Holds env tokens (d.erase name) m := by
  obtain ⟨token, htoken, rfl⟩ := h.txDir_of_dir hget
  refine h.of_txDir htoken ?_ fun name hname => Dictionary.get_erase_of_ne hname
  intro node hnode
  rw [Dictionary.get_erase_self] at hnode
  cases hnode

theorem removeOrphan (name : Text) : Holds env tokens (removeOrphan d name) m := by
  by_cases hdir : d.get name = some .dir
  · rw [h.removeOrphan_dir hdir]
    exact h.erase_dir hdir
  · rw [removeOrphan_of_ne hdir]
    exact h

/-- The loop removes the directories it comes to. -/
theorem foldl_removeOrphan (names : List Text) :
    Holds env tokens (names.foldl Registry.removeOrphan d) m ∧
      ∀ name, (names.foldl Registry.removeOrphan d).get name = some .dir →
        d.get name = some .dir ∧ name ∉ names := by
  induction names generalizing d with
  | nil => exact ⟨h, fun name hget => ⟨hget, List.not_mem_nil⟩⟩
  | cons first rest ih =>
    rw [List.foldl_cons]
    obtain ⟨hholds, hdirs⟩ := ih (h.removeOrphan first)
    refine ⟨hholds, fun name hget => ?_⟩
    obtain ⟨hbefore, hrest⟩ := hdirs name hget
    by_cases hfirst : d.get first = some .dir
    · rw [h.removeOrphan_dir hfirst] at hbefore
      have hne : name ≠ first := by
        rintro rfl
        rw [Dictionary.get_erase_self] at hbefore
        cases hbefore
      rw [Dictionary.get_erase_of_ne hne] at hbefore
      exact ⟨hbefore, by simp [hne, hrest]⟩
    · rw [removeOrphan_of_ne hfirst] at hbefore
      have hne : name ≠ first := by
        rintro rfl
        exact hfirst hbefore
      exact ⟨hbefore, by simp [hne, hrest]⟩

/-- **Recovery** removes the transaction directories and nothing else. -/
theorem recover : Holds env tokens (recover env d) m ∧ Clean (Registry.recover env d) := by
  rw [h.recover_eq]
  obtain ⟨hholds, hdirs⟩ := h.foldl_removeOrphan (d.items.map Prod.fst)
  refine ⟨hholds, fun name hget => ?_⟩
  obtain ⟨hbefore, hmem⟩ := hdirs name hget
  have hin := Dictionary.get_eq_some_iff.mp hbefore
  exact hmem (List.mem_map.mpr ⟨_, hin, rfl⟩)

/-! ### The check of a register -/

omit h in
/-- A voice with this safe id stands in the way of another id. -/
theorem taken_iff {id : String} :
    m.taken id = true ↔ ∃ id' v, m.get id' = some v ∧ id' ≠ id ∧ safeText id' = safeText id := by
  unfold Voices.taken
  rw [List.any_eq_true]
  constructor
  · rintro ⟨item, hitem, hcond⟩
    exact ⟨item.1, item.2, Dictionary.get_eq_some_iff.mpr hitem, by simpa using hcond⟩
  · rintro ⟨id', v, hv, hcond⟩
    exact ⟨(id', v), Dictionary.get_eq_some_iff.mp hv, by simpa using hcond⟩

variable {id : String} {safe : Text}

/-- The files of a safe id are there where its own id is registered, or another one. -/
theorem json_none (hsafe : safeText id = some safe) (hid : m.get id = none)
    (htaken : m.taken id = false) : d.get (jsonName safe) = none ∧ d.get (npzName safe) = none := by
  have hnobody : ¬ ∃ id' v, m.get id' = some v ∧ safeText id' = some safe := by
    rintro ⟨id', v, hv, hsafe'⟩
    have hne : id' ≠ id := by
      rintro rfl
      rw [hid] at hv
      cases hv
    have htrue : m.taken id = true := taken_iff.mpr ⟨id', v, hv, hne, hsafe'.trans hsafe.symm⟩
    rw [htaken] at htrue
    cases htrue
  constructor
  · rcases hget : d.get (jsonName safe) with _ | node
    · rfl
    · exact absurd (h.voice_of_json hget) hnobody
  · rcases hget : d.get (npzName safe) with _ | node
    · rfl
    · exact absurd (h.voice_of_npz hget) hnobody

/-- **A register of an id that is taken** is refused. -/
theorem assert_taken (hsafe : safeText id = some safe) (htaken : m.taken id = true) :
    assertSafeIdAvailable env d (.str id) safe =
      .error (.collision (((loadJson d (jsonName safe)).map
        fun data => data.get "voice_id").getD .none) safe) := by
  obtain ⟨id', v, hv, hne, hsafe'⟩ := taken_iff.mp htaken
  obtain ⟨safe', data, arrays, hs, hjson, hnpz, hwritten⟩ := h.pair id' v hv
  obtain rfl : safe' = safe := by
    rw [hsafe', hsafe, Option.some_inj] at hs
    exact hs.symm
  have hother : sameText (.str id') (.str id) = false := by simpa [sameText] using hne
  unfold assertSafeIdAvailable
  dsimp only
  rw [present_of_get hjson, present_of_get hnpz, loadJson_of_get hjson, Option.map_some,
    Option.getD_some, hwritten.voiceId, hother]
  rfl

/-- **A register of an id that is not taken** may go on, whether it replaces a voice or not. -/
theorem assert_free (hsafe : safeText id = some safe) (htaken : m.taken id = false) :
    assertSafeIdAvailable env d (.str id) safe = .ok () := by
  rcases hid : m.get id with _ | v
  · obtain ⟨hjson, hnpz⟩ := h.json_none hsafe hid htaken
    unfold assertSafeIdAvailable
    dsimp only
    rw [present_eq_false.mpr hjson, present_eq_false.mpr hnpz]
    rfl
  · obtain ⟨safe', data, arrays, hs, hjson, hnpz, hwritten⟩ := h.pair id v hid
    obtain rfl : safe' = safe := Option.some_inj.mp (hs.symm.trans hsafe)
    have hsame : sameText (.str id) (.str id) = true := by simp [sameText]
    have hdata : data ≠ [] := by
      rintro rfl
      have hnone := hwritten.npzFile
      cases hnone
    have hfile : (data.getD "npz_file" (.str (String.ofList (npzName safe')))).isText
        (String.ofList (npzName safe')) = true := by
      rw [hwritten.npzFile_getD, Value.isText_iff]
    unfold assertSafeIdAvailable
    dsimp only
    rw [present_of_get hjson, present_of_get hnpz, loadJson_of_get hjson, Option.map_some,
      Option.getD_some, hwritten.voiceId, hsame]
    dsimp only [Bool.not_true, Bool.and_self, Bool.false_eq_true, if_false, ne_eq, not_true]
    rw [if_neg (by decide), if_neg (by decide), if_neg (by decide),
      if_neg (by rintro (hno | hno); exacts [hdata hno, by rw [hfile] at hno; cases hno]),
      hwritten.pairTokenMatches (npLoad_of_get hnpz), hwritten.metadata d (npLoad_of_get hnpz)]
    rfl

/-! ### Writing and removing a pair -/

/-- The name of a transaction directory is not in use between two calls. -/
theorem present_txDir (hclean : Clean d) : present d (txDir token) = false := by
  rw [present_eq_false]
  rcases hget : d.get (txDir token) with _ | node
  · rfl
  · rcases h.only _ _ hget with ⟨id, v, safe, -, -, hname⟩ | ⟨rfl, -⟩
    · rcases hname with hname | hname
      · exact absurd hname txDir_ne_jsonName
      · exact absurd hname txDir_ne_npzName
    · exact absurd hget (hclean _)

theorem put_txDir (htoken : token ∈ tokens) : Holds env tokens (d.put (txDir token) .dir) m := by
  refine h.of_txDir htoken ?_ fun name hname => Dictionary.get_put_of_ne hname
  intro node hnode
  rw [Dictionary.get_put_self, Option.some_inj] at hnode
  exact hnode.symm

end Holds

/-- What a transaction leaves, where it leaves nothing of its own. -/
theorem get_cleanupTransaction {d' : Dir} {left : Text → Option Node}
    (htx : left (txDir token) = none) (hjournal : left (journalName token) = none)
    (hget : ∀ name, name ≠ txDir token → name ≠ journalName token → d'.get name = left name)
    (name : Text) : (cleanupTransaction d' token).get name = left name := by
  unfold cleanupTransaction
  by_cases hj : name = journalName token
  · rw [hj, Dictionary.get_erase_self, hjournal]
  · rw [Dictionary.get_erase_of_ne hj]
    by_cases ht : name = txDir token
    · rw [ht, Dictionary.get_erase_self, htx]
    · rw [Dictionary.get_erase_of_ne ht, hget name ht hj]

namespace Holds

variable (h : Holds env tokens d m) {id : String} {v : Voice} {safe : Text} {data : Dict}
  {arrays : Arrays}

include h

theorem get_txDir (hclean : Clean d) : d.get (txDir token) = none :=
  present_eq_false.mp (h.present_txDir hclean)

/-- **A write** changes the two files of the pair. -/
theorem atomicWritePair_ok (data : Dict) (hclean : Clean d) (htoken : token ∈ tokens)
    (hfree : safe ≠ txDir token) (hfile : arrays.get "file" = none) :
    ∃ d', atomicWritePair env d safe data arrays token = (d', .ok ()) ∧
      ∀ name, d'.get name =
        if name = jsonName safe then some (.file (.json (stampData data token)))
        else if name = npzName safe then some (.file (.npz (stampArrays env arrays token)))
        else d.get name := by
  have hstamp : ((stampArrays env arrays token).get "file").isSome = false := by
    rw [get_stampArrays (by decide), hfile]
    rfl
  obtain ⟨d', heq, hget⟩ : ∃ d', atomicWritePair env d safe data arrays token =
      (cleanupTransaction d' token, .ok ()) ∧
      ∀ name, name ≠ txDir token → name ≠ journalName token → d'.get name =
        if name = jsonName safe then some (.file (.json (stampData data token)))
        else if name = npzName safe then some (.file (.npz (stampArrays env arrays token)))
        else d.get name := by
    unfold atomicWritePair
    rw [h.present_txDir hclean]
    dsimp only
    rw [if_neg Bool.false_ne_true, hstamp, if_neg Bool.false_ne_true]
    refine ⟨_, rfl, fun name ht hj => ?_⟩
    by_cases hjson : name = jsonName safe
    · rw [if_pos hjson, hjson, Dictionary.get_put_self]
    · rw [if_neg hjson, Dictionary.get_put_of_ne hjson]
      by_cases hnpz : name = npzName safe
      · rw [if_pos hnpz, hnpz, Dictionary.get_put_self]
      · rw [if_neg hnpz, Dictionary.get_put_of_ne hnpz, Dictionary.get_put_of_ne hj,
          Dictionary.get_put_of_ne ht]
  refine ⟨_, heq, get_cleanupTransaction ?_ ?_ hget⟩
  · rw [if_neg txDir_ne_jsonName, if_neg txDir_ne_npzName, h.get_txDir hclean]
  · have hjson : journalName token ≠ jsonName safe := fun hj => hfree (jsonName_inj.mp hj).symm
    have hnpz : journalName token ≠ npzName safe := jsonName_ne_npzName
    rw [if_neg hjson, if_neg hnpz, h.journal_none htoken]

/-- **A removal** takes the two files of the pair away. -/
theorem atomicDeletePair_ok (safe : Text) (hclean : Clean d) (htoken : token ∈ tokens) :
    ∃ d', atomicDeletePair env d safe token = (d', .ok ()) ∧
      ∀ name, d'.get name =
        if name = jsonName safe ∨ name = npzName safe then none else d.get name := by
  obtain ⟨d', heq, hget⟩ : ∃ d', atomicDeletePair env d safe token =
      (cleanupTransaction d' token, .ok ()) ∧
      ∀ name, name ≠ txDir token → name ≠ journalName token → d'.get name =
        if name = jsonName safe ∨ name = npzName safe then none else d.get name := by
    unfold atomicDeletePair
    rw [h.present_txDir hclean]
    refine ⟨_, rfl, fun name ht hj => ?_⟩
    by_cases hnpz : name = npzName safe
    · rw [if_pos (.inr hnpz), hnpz, Dictionary.get_erase_self]
    · rw [Dictionary.get_erase_of_ne hnpz]
      by_cases hjson : name = jsonName safe
      · rw [if_pos (.inl hjson), hjson, Dictionary.get_erase_self]
      · rw [Dictionary.get_erase_of_ne hjson, Dictionary.get_put_of_ne hj,
          Dictionary.get_put_of_ne ht, if_neg (by rintro (hno | hno); exacts [hjson hno, hnpz hno])]
  refine ⟨_, heq, get_cleanupTransaction ?_ ?_ hget⟩
  · rw [h.get_txDir hclean, ite_self]
  · rw [h.journal_none htoken, ite_self]

/-- The voices after a pair has been written. -/
theorem put_pair {d' : Dir} (hsafe : safeText id = some safe) (htaken : m.taken id = false)
    (hfree : ∀ token ∈ tokens, safe ≠ txDir token) (hquiet : Quiet env tokens data)
    (hwritten : Written env id v safe data arrays)
    (hget : ∀ name, d'.get name =
      if name = jsonName safe then some (.file (.json data))
      else if name = npzName safe then some (.file (.npz arrays)) else d.get name) :
    Holds env tokens d' (m.put id v) := by
  have hother : ∀ id' v' safe', id' ≠ id → m.get id' = some v' → safeText id' = some safe' →
      safe' ≠ safe := by
    rintro id' v' safe' hne hv' hsafe' rfl
    have htrue : m.taken id = true := taken_iff.mpr ⟨id', v', hv', hne, hsafe'.trans hsafe.symm⟩
    rw [htaken] at htrue
    cases htrue
  constructor
  · intro id' v' hv'
    by_cases hid : id' = id
    · subst hid
      rw [Dictionary.get_put_self, Option.some_inj] at hv'
      subst hv'
      exact ⟨safe, data, arrays, hsafe, by rw [hget, if_pos rfl],
        by rw [hget, if_neg jsonName_ne_npzName.symm, if_pos rfl], hwritten⟩
    · rw [Dictionary.get_put_of_ne hid] at hv'
      obtain ⟨safe', data', arrays', hs, hjson, hnpz, hw⟩ := h.pair id' v' hv'
      have hne := hother id' v' safe' hid hv' hs
      refine ⟨safe', data', arrays', hs, ?_, ?_, hw⟩
      · rw [hget, if_neg fun heq => hne (jsonName_inj.mp heq), if_neg jsonName_ne_npzName, hjson]
      · rw [hget, if_neg jsonName_ne_npzName.symm, if_neg fun heq => hne (npzName_inj.mp heq), hnpz]
  · intro name node hnode
    have hnew : (m.put id v).get id = some v := Dictionary.get_put_self _
    rw [hget] at hnode
    split at hnode
    · next hname => exact .inl ⟨id, v, safe, hnew, hsafe, .inl hname⟩
    · split at hnode
      · next hname => exact .inl ⟨id, v, safe, hnew, hsafe, .inr hname⟩
      · rcases h.only name node hnode with ⟨id', v', safe', hv', hs, hname⟩ | hdir
        · by_cases hid : id' = id
          · subst hid
            exact .inl ⟨id', v, safe', hnew, hs, hname⟩
          · exact .inl ⟨id', v', safe', by rw [Dictionary.get_put_of_ne hid, hv'], hs, hname⟩
        · exact .inr hdir
  · intro name data' hdata
    rw [loadJson, hget] at hdata
    split at hdata
    · next content hcontent =>
      split at hcontent
      · cases hcontent
        cases hdata
        exact hquiet
      · split at hcontent
        · cases hcontent
        · cases hdata
          exact h.quiet name _ (loadJson_of_get hcontent)
    · cases hdata
  · intro id' v' hv' token htoken hname
    by_cases hid : id' = id
    · subst hid
      rw [hsafe, Option.some_inj] at hname
      exact hfree token htoken hname
    · rw [Dictionary.get_put_of_ne hid] at hv'
      exact h.free id' v' hv' token htoken hname

/-- The voices after a pair has been removed. -/
theorem erase_pair {d' : Dir} (hv : m.get id = some v) (hsafe : safeText id = some safe)
    (hget : ∀ name, d'.get name =
      if name = jsonName safe ∨ name = npzName safe then none else d.get name) :
    Holds env tokens d' (m.erase id) := by
  have hold : ∀ id' v', (m.erase id).get id' = some v' → id' ≠ id ∧ m.get id' = some v' := by
    intro id' v' hv'
    by_cases hid : id' = id
    · rw [hid, Dictionary.get_erase_self] at hv'
      cases hv'
    · rw [Dictionary.get_erase_of_ne hid] at hv'
      exact ⟨hid, hv'⟩
  constructor
  · intro id' v' hv'
    obtain ⟨hid, hv'⟩ := hold id' v' hv'
    obtain ⟨safe', data', arrays', hs, hjson, hnpz, hw⟩ := h.pair id' v' hv'
    have hne : safe' ≠ safe := by
      rintro rfl
      exact hid (h.id_unique hv' hv (hs.trans hsafe.symm))
    refine ⟨safe', data', arrays', hs, ?_, ?_, hw⟩
    · rw [hget, if_neg, hjson]
      rintro (heq | heq)
      · exact hne (jsonName_inj.mp heq)
      · exact jsonName_ne_npzName heq
    · rw [hget, if_neg, hnpz]
      rintro (heq | heq)
      · exact jsonName_ne_npzName heq.symm
      · exact hne (npzName_inj.mp heq)
  · intro name node hnode
    rw [hget] at hnode
    split at hnode
    · cases hnode
    · next hname =>
      rcases h.only name node hnode with ⟨id', v', safe', hv', hs, hname'⟩ | hdir
      · have hid : id' ≠ id := by
          rintro rfl
          obtain rfl : safe' = safe := Option.some_inj.mp (hs.symm.trans hsafe)
          exact hname hname'
        exact .inl ⟨id', v', safe', by rw [Dictionary.get_erase_of_ne hid, hv'], hs, hname'⟩
      · exact .inr hdir
  · intro name data' hdata
    rw [loadJson, hget] at hdata
    split at hdata
    · next content hcontent =>
      split at hcontent
      · cases hcontent
      · cases hdata
        exact h.quiet name _ (loadJson_of_get hcontent)
    · cases hdata
  · intro id' v' hv'
    exact h.free id' v' (hold id' v' hv').2

end Holds

end OpenVoiceStream.SparkVoices.Registry
