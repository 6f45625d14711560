import OpenVoiceStream.Actions.Model

/-!
# What a save writes is read back

An entry is written as a bare list of frames or as a mapping with its texts, and either
shape loads as the same entry; so a new manager on a file that was just written has the
map it was written from.

## Main results

* `loadEntry_serializeEntry` — one entry.
* `loadTop_payload` — the whole map, read by key.
* `plain_payload` — the payload holds nothing a YAML library could not read back.
-/

namespace OpenVoiceStream.Actions

open TtsSpeakers (strip strip_strip)

variable {F τ : Type} (py : Python F) (lib : Library F τ)

/-- Reading every element back reads the list back. -/
private theorem mapM_map_some {α β : Type} {f : β → Option α} {g : α → β} :
    ∀ {l : List α}, (∀ x ∈ l, f (g x) = some x) → (l.map g).mapM f = some l
  | [], _ => rfl
  | x :: l, h => by
    have hx : f (g x) = some x := h x List.mem_cons_self
    have hl : (l.map g).mapM f = some l := mapM_map_some fun y hy => h y (List.mem_cons_of_mem _ hy)
    rw [List.map_cons, List.mapM_cons, hx, hl]
    rfl

/-! ### Frames and texts -/

/-- The joints of a frame as items. -/
private def jointItems (joints : Dictionary String F) : List (String × Yaml F) :=
  joints.items.map fun j => (j.1, .scalar (.float j.2))

/-- A frame as items. -/
private def frameItems (frame : Frame F) : List (String × Yaml F) :=
  [("joints", .map (Yaml.keyed (jointItems frame.joints))), ("delay", .scalar (.float frame.delay))]

theorem loadJoints_items (joints : Dictionary String F) :
    loadJoints py (Yaml.keyed (jointItems joints)) = some joints := by
  have hread : (joints.items.map fun j : String × F =>
        ((.str j.1, .scalar (.float j.2)) : Scalar F × Yaml F)).mapM
      (fun item => (item.2.toFloat py).toOption.map fun value => (item.1.text py, value)) =
        some joints.items :=
    mapM_map_some fun j _ => rfl
  unfold loadJoints Yaml.keyed jointItems
  rw [List.map_map]
  exact (congrArg (Option.map Dictionary.ofPairs) hread).trans
    (congrArg some Dictionary.ofPairs_self)

/-- A frame that was written is read back. -/
theorem coerceFrame_frameItems (frame : Frame F) :
    coerceFrame py (Yaml.keyed (frameItems frame)) = some frame := by
  unfold coerceFrame loadDelay frameItems
  simp only [Yaml.field_keyed_cons, if_true, String.reduceEq, if_false, loadJoints_items,
    Yaml.toFloat_float]
  rfl

theorem mappings_frameYaml (frames : List (Frame F)) :
    mappings (frames.map frameYaml) = frames.map fun frame => Yaml.keyed (frameItems frame) := by
  induction frames with
  | nil => rfl
  | cons frame rest ih => exact congrArg (Yaml.keyed (frameItems frame) :: ·) ih

theorem Stripped.of_text (text : Stripped) : Stripped.of text.text = text :=
  Stripped.ext text.stripped

theorem Stripped.eq_empty {text : Stripped} (h : text.text = "") : text = .empty := by
  rw [← Stripped.of_text text, h, Stripped.empty]

/-- A field after an optional text of another name. -/
theorem field_textItems (key name : String) (text : Stripped) (rest : List (String × Yaml F)) :
    Yaml.field (Yaml.keyed (textItems key text ++ rest)) name =
      if key = name ∧ text.text ≠ "" then some (.scalar (.str text.text))
      else Yaml.field (Yaml.keyed rest) name := by
  unfold textItems
  by_cases hempty : text.text = ""
  · simp [hempty]
  · by_cases hkey : key = name <;> simp [hempty, hkey]

/-- A text is read back, whether it is there or left out. -/
theorem entryText_of_field {items : List (Scalar F × Yaml F)} {name : String} {text : Stripped}
    (h : Yaml.field items name =
      if text.text ≠ "" then some (.scalar (.str text.text)) else none) :
    entryText name (.map items) = text := by
  simp only [entryText, h]
  by_cases hempty : text.text = ""
  · rw [if_neg (not_not_intro hempty)]
    exact (Stripped.eq_empty hempty).symm
  · rw [if_pos hempty]
    exact Stripped.of_text text

/-- The texts of an entry are read back, whichever of them are there. -/
theorem entryText_entryItems (entry : Entry F) :
    let data : Yaml F := .map (Yaml.keyed (entryItems entry))
    entryText "description" data = entry.description ∧
      entryText "response_mode" data = entry.responseMode ∧
      entryText "completion_text" data = entry.completionText := by
  refine ⟨entryText_of_field ?_, entryText_of_field ?_, entryText_of_field ?_⟩ <;>
    simp [entryItems, field_textItems]

theorem frameList_serializeEntry (entry : Entry F) :
    frameList (serializeEntry entry) = some (entry.frames.map frameYaml) := by
  unfold serializeEntry
  split
  · rfl
  · simp [frameList, entryItems, field_textItems]

/-! ### Entries and the whole file -/

/-- An entry that was written is read back. -/
theorem loadEntry_serializeEntry (name : Name) (entry : Entry F) :
    loadEntry py (.str name.1, serializeEntry entry) = some (some (name, entry)) := by
  have hframes : coerceFrames py (serializeEntry entry) = some (some entry.frames) := by
    unfold coerceFrames
    rw [frameList_serializeEntry]
    have hread : (entry.frames.map fun frame => Yaml.keyed (frameItems frame)).mapM
        (coerceFrame py) = some entry.frames :=
      mapM_map_some fun frame _ => coerceFrame_frameItems py frame
    show ((mappings (entry.frames.map frameYaml)).mapM (coerceFrame py)).map some = _
    rw [mappings_frameYaml, hread, Option.map_some]
  have htexts : entryText "description" (serializeEntry entry) = entry.description ∧
      entryText "response_mode" (serializeEntry entry) = entry.responseMode ∧
      entryText "completion_text" (serializeEntry entry) = entry.completionText := by
    unfold serializeEntry
    split
    · next hempty =>
      -- the bare list of frames has no texts, and the entry had none
      exact ⟨(Stripped.eq_empty hempty.1).symm, (Stripped.eq_empty hempty.2.1).symm,
        (Stripped.eq_empty hempty.2.2).symm⟩
    · exact entryText_entryItems entry
  unfold loadEntry
  rw [hframes, Option.map_some]
  simp only [name.2, dif_pos, htexts]

theorem sortedItems_perm (map : ActionMap F) : (sortedItems map).Perm map.items :=
  List.perm_insertionSort _ _

/-- The names of the map, as strings, are distinct. -/
theorem nodup_names (map : ActionMap F) : ((sortedItems map).map fun item => item.1.1).Nodup := by
  have hkeys : ((sortedItems map).map Prod.fst).Nodup :=
    ((sortedItems_perm map).map Prod.fst).nodup_iff.mpr map.nodup
  have hnames : (((sortedItems map).map Prod.fst).map Subtype.val).Nodup :=
    hkeys.map Subtype.val_injective
  rwa [List.map_map] at hnames

/-- The map as a dictionary in the order of the file. -/
def sortedMap (map : ActionMap F) : ActionMap F :=
  ⟨sortedItems map, ((sortedItems_perm map).map Prod.fst).nodup_iff.mpr map.nodup⟩

theorem get_sortedMap (map : ActionMap F) (name : Name) :
    (sortedMap map).get name = map.get name :=
  Dictionary.get_eq_of_perm (sortedItems_perm map)

/-- The items of `sequences` in the payload. -/
def sequenceItems (map : ActionMap F) : List (Scalar F × Yaml F) :=
  Yaml.keyed ((sortedItems map).map fun item => (item.1.1, serializeEntry item.2))

theorem fieldOrEmpty_payload (map : ActionMap F) :
    fieldOrEmpty py [(.str "sequences", .map (sequenceItems map))] "sequences" =
      .map (sequenceItems map) := by
  unfold fieldOrEmpty orEmpty
  simp only [Yaml.field_cons, if_true, Option.map_some, Option.getD_some]
  split
  · rfl
  · next hempty =>
    have : sequenceItems map = [] := by simpa [Yaml.truthy] using hempty
    rw [this]

theorem mergePoses_payload (map : ActionMap F) :
    mergePoses py [(.str "sequences", .map (sequenceItems map))] =
      some (.map (sequenceItems map)) := by
  have hposes : poseItems py [(.str "sequences", .map (sequenceItems map))] = [] := by
    simp [poseItems, fieldOrEmpty]
  unfold mergePoses
  rw [hposes, fieldOrEmpty_payload]
  rfl

theorem loadEntries_payload (map : ActionMap F) :
    (sequenceItems map).mapM (loadEntry py) = some ((sortedItems map).map some) := by
  unfold sequenceItems Yaml.keyed
  rw [List.map_map]
  generalize sortedItems map = items
  induction items with
  | nil => rfl
  | cons item rest ih =>
    have hitem : loadEntry py (.str item.1.1, serializeEntry item.2) = some (some item) :=
      loadEntry_serializeEntry py item.1 item.2
    rw [List.map_cons, List.mapM_cons, ih]
    show (loadEntry py (.str item.1.1, serializeEntry item.2) >>= _) = _
    rw [hitem]
    rfl

/-- The whole map is read back, in the order of the file. -/
theorem loadTop_payload (map : ActionMap F) :
    loadTop py [(.str "sequences", .map (sequenceItems map))] = some (sortedMap map) := by
  unfold loadTop
  rw [mergePoses_payload]
  show ((sequenceItems map).mapM (loadEntry py) >>= fun entries =>
    some (Dictionary.ofPairs (entries.filterMap id))) = _
  rw [loadEntries_payload, Option.bind_eq_bind, Option.bind_some, List.filterMap_map]
  have hitems : (sortedItems map).filterMap (id ∘ some) = (sortedMap map).items :=
    List.filterMap_some
  rw [hitems, Dictionary.ofPairs_self]

/-! ### The payload is plain -/

theorem plain_frameYaml (frame : Frame F) : (frameYaml frame).Plain := by
  have hjoints : (Yaml.map (Yaml.keyed (jointItems frame.joints))).Plain := by
    refine .dict ?_ ?_
    · unfold jointItems
      rw [List.map_map]
      exact frame.joints.nodup
    · intro item hitem
      obtain ⟨j, -, rfl⟩ := List.mem_map.mp hitem
      exact .float j.2
  have hkeys : ((frameItems frame).map Prod.fst).Nodup := by simp [frameItems]
  refine .dict hkeys ?_
  intro item hitem
  rcases List.mem_cons.mp hitem with rfl | hitem
  · exact hjoints
  · rw [List.mem_singleton] at hitem
    rw [hitem]
    exact .float frame.delay

theorem plain_serializeEntry (entry : Entry F) : (serializeEntry entry).Plain := by
  have hframes : (Yaml.seq (entry.frames.map frameYaml)).Plain := by
    refine .seq fun item hitem => ?_
    obtain ⟨frame, -, rfl⟩ := List.mem_map.mp hitem
    exact plain_frameYaml frame
  unfold serializeEntry
  split
  · exact hframes
  · refine .dict ?_ ?_
    · unfold entryItems textItems
      split <;> split <;> split <;> simp
    · intro item hitem
      unfold entryItems textItems at hitem
      split at hitem <;> split at hitem <;> split at hitem <;>
        simp only [List.nil_append, List.cons_append, List.mem_cons, List.not_mem_nil,
          or_false] at hitem <;>
        rcases hitem with rfl | rfl | rfl | rfl <;> first | exact .str _ | exact hframes

/-- What a save dumps loads back. -/
theorem plain_payload (map : ActionMap F) : (payload map).Plain := by
  have hsequences : (Yaml.map (sequenceItems map)).Plain := by
    refine .dict ?_ ?_
    · rw [List.map_map]
      exact nodup_names map
    · intro item hitem
      obtain ⟨entry, -, rfl⟩ := List.mem_map.mp hitem
      exact plain_serializeEntry entry.2
  refine .dict (by simp) ?_
  intro item hitem
  rw [List.mem_singleton] at hitem
  rw [hitem]
  exact hsequences

/-- A new manager on a file that was just written has the map it was written from. -/
theorem start_payload (map : ActionMap F) (mtime : ℕ) :
    start py lib (some ⟨lib.dump (payload map), mtime⟩) true =
      some ⟨some ⟨lib.dump (payload map), mtime⟩, sortedMap map,
        some (cacheOf lib ⟨lib.dump (payload map), mtime⟩)⟩ := by
  have hdata : orEmpty py (payload map) = .map [(.str "sequences", .map (sequenceItems map))] := rfl
  unfold start
  simp only [Bool.true_eq_false, if_false, lib.load_dump _ (plain_payload map), hdata,
    loadTop_payload, Option.map_some]

end OpenVoiceStream.Actions
