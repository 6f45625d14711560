import Mathlib.Data.List.Basic
import Mathlib.Data.List.Nodup

/-!
# Dictionaries in order of insertion

A Python dictionary as the list of its items: writing under a key that is there keeps
its place, writing under a new one adds an item at the end.

## Main definitions

* `Assoc.put` — `d[key] = value`.
* `Assoc.ofPairs` — the dictionary a list of items makes, later ones winning.
* `Assoc.erase` — `d.pop(key, None)`.
* `Dictionary` — items under distinct keys, with the same operations.

## Main results

* `Assoc.lookup_put_self`, `Assoc.lookup_put_of_ne` — reading after writing.
* `Assoc.lookup_erase_self`, `Assoc.lookup_erase_of_ne` — reading after removing.
* `Assoc.ofPairs_of_nodup` — items under distinct keys are kept as they are.
-/

namespace Assoc

variable {κ β γ : Type*} [DecidableEq κ]

/-- `d[key] = value`. -/
def put : List (κ × β) → κ → β → List (κ × β)
  | [], key, value => [(key, value)]
  | item :: rest, key, value =>
    if item.1 = key then (key, value) :: rest else item :: put rest key value

theorem put_nil (key : κ) (value : β) : put [] key value = [(key, value)] := rfl

theorem put_cons (item : κ × β) (rest : List (κ × β)) (key : κ) (value : β) :
    put (item :: rest) key value =
      if item.1 = key then (key, value) :: rest else item :: put rest key value := rfl

/-- The dictionary with these items. -/
def ofPairs (items : List (κ × β)) : List (κ × β) :=
  items.foldl (fun d item => put d item.1 item.2) []

variable (d : List (κ × β)) (key other : κ) (value : β)

@[simp] theorem lookup_put_self : (put d key value).lookup key = some value := by
  induction d with
  | nil => simp [put_nil]
  | cons item rest ih =>
    rw [put_cons]
    split
    · simp
    · next hne =>
      have hne' : (key == item.1) = false := by simpa using fun h => hne h.symm
      rw [List.lookup_cons, hne', ih]

variable {d key other value}

theorem lookup_put_of_ne (h : other ≠ key) : (put d key value).lookup other = d.lookup other := by
  induction d with
  | nil => simp [put_nil, h]
  | cons item rest ih =>
    rw [put_cons]
    split
    · next hitem =>
      have hne : (other == key) = false := by simpa using h
      have hne' : (other == item.1) = false := by simpa [hitem] using h
      rw [List.lookup_cons, List.lookup_cons, hne, hne']
    · rw [List.lookup_cons, List.lookup_cons, ih]

theorem put_of_notMem (h : key ∉ d.map Prod.fst) : put d key value = d ++ [(key, value)] := by
  induction d with
  | nil => rfl
  | cons item rest ih =>
    rw [List.map_cons, List.mem_cons, not_or] at h
    rw [put_cons, if_neg fun hitem => h.1 hitem.symm, ih h.2, List.cons_append]

theorem keys_put : (put d key value).map Prod.fst =
    if key ∈ d.map Prod.fst then d.map Prod.fst else d.map Prod.fst ++ [key] := by
  induction d with
  | nil => simp [put_nil]
  | cons item rest ih =>
    rw [put_cons]
    by_cases hitem : item.1 = key
    · simp [hitem]
    · have hne : ¬ key = item.1 := fun h => hitem h.symm
      rw [if_neg hitem, List.map_cons, ih, List.map_cons]
      by_cases hmem : key ∈ rest.map Prod.fst
      · rw [if_pos hmem, if_pos (List.mem_cons_of_mem _ hmem)]
      · have hnot : key ∉ item.1 :: rest.map Prod.fst := by
          rw [List.mem_cons, not_or]
          exact ⟨hne, hmem⟩
        rw [if_neg hmem, if_neg hnot, List.cons_append]

theorem nodup_put (h : (d.map Prod.fst).Nodup) : ((put d key value).map Prod.fst).Nodup := by
  rw [keys_put]
  split
  · exact h
  · next hnew =>
    refine h.append (List.nodup_singleton key) ?_
    intro k hk hk'
    rw [List.mem_singleton] at hk'
    exact hnew (hk' ▸ hk)

theorem nodup_ofPairs (items : List (κ × β)) : ((ofPairs items).map Prod.fst).Nodup := by
  suffices h : ∀ d : List (κ × β), (d.map Prod.fst).Nodup →
      ((items.foldl (fun d item => put d item.1 item.2) d).map Prod.fst).Nodup from
    h [] List.nodup_nil
  induction items with
  | nil => exact fun _ h => h
  | cons item rest ih => exact fun d h => ih _ (nodup_put h)

/-- Items under distinct keys are kept as they are. -/
theorem ofPairs_of_nodup {items : List (κ × β)} (h : (items.map Prod.fst).Nodup) :
    ofPairs items = items := by
  suffices hd : ∀ d : List (κ × β), ((d ++ items).map Prod.fst).Nodup →
      items.foldl (fun d item => put d item.1 item.2) d = d ++ items from hd [] h
  clear h
  induction items with
  | nil => exact fun d _ => (List.append_nil d).symm
  | cons item rest ih =>
    intro d hd
    have hitem : item.1 ∉ d.map Prod.fst := by
      rw [List.map_append, List.map_cons] at hd
      intro hmem
      exact List.disjoint_of_nodup_append hd hmem List.mem_cons_self
    rw [List.foldl_cons, put_of_notMem hitem]
    have := ih (d ++ [item]) (by simpa using hd)
    simpa using this

/-- `d.pop(key, None)`, as the items after it. -/
def erase (d : List (κ × β)) (key : κ) : List (κ × β) := d.filter fun item => item.1 ≠ key

@[simp] theorem lookup_erase_self : (erase d key).lookup key = none := by
  rw [List.lookup_eq_none_iff]
  intro item hitem
  have hne : item.1 ≠ key := by simpa [erase] using (List.mem_filter.mp hitem).2
  simpa using fun h : key = item.1 => hne h.symm

theorem lookup_erase_of_ne (h : other ≠ key) :
    (erase d key).lookup other = d.lookup other := by
  induction d with
  | nil => rfl
  | cons item rest ih =>
    rw [erase, List.filter_cons]
    by_cases hitem : item.1 = key
    · have hne : (other == item.1) = false := by simpa [hitem] using h
      rw [if_neg (by simpa using hitem), List.lookup_cons, hne]
      exact ih
    · rw [if_pos (by simpa using hitem), List.lookup_cons, List.lookup_cons]
      split
      · rfl
      · exact ih

theorem nodup_erase (h : (d.map Prod.fst).Nodup) : ((erase d key).map Prod.fst).Nodup :=
  h.sublist (List.filter_sublist.map Prod.fst)

/-- Removing a key that is not there changes nothing. -/
theorem erase_of_notMem (h : key ∉ d.map Prod.fst) : erase d key = d := by
  refine List.filter_eq_self.mpr fun item hitem => ?_
  simpa using fun heq : item.1 = key => h (heq ▸ List.mem_map_of_mem hitem)

/-- Up to order, writing under a key is removing it and adding an item. -/
theorem perm_put (h : (d.map Prod.fst).Nodup) :
    (put d key value).Perm ((key, value) :: erase d key) := by
  induction d with
  | nil => exact List.Perm.refl _
  | cons item rest ih =>
    rw [List.map_cons, List.nodup_cons] at h
    rw [put_cons, erase, List.filter_cons]
    by_cases hitem : item.1 = key
    · rw [if_pos hitem, if_neg (by simpa using hitem), ← hitem]
      exact List.Perm.of_eq (congrArg _ (erase_of_notMem h.1).symm)
    · rw [if_neg hitem, if_pos (by simpa using hitem)]
      exact ((ih h.2).cons item).trans (List.Perm.swap _ _ _)

/-- Up to order, a dictionary is one of its items and the others. -/
theorem perm_cons_erase (h : (d.map Prod.fst).Nodup) (hget : d.lookup key = some value) :
    d.Perm ((key, value) :: erase d key) := by
  induction d with
  | nil => cases hget
  | cons item rest ih =>
    rw [List.map_cons, List.nodup_cons] at h
    rw [List.lookup_cons] at hget
    rw [erase, List.filter_cons]
    by_cases hitem : item.1 = key
    · have heq : (key == item.1) = true := by simpa using hitem.symm
      rw [heq] at hget
      obtain rfl : item.2 = value := Option.some.inj hget
      rw [if_neg (by simpa using hitem), ← hitem]
      exact List.Perm.of_eq (congrArg _ (erase_of_notMem h.1).symm)
    · have hne : (key == item.1) = false := by simpa using fun heq : key = item.1 => hitem heq.symm
      rw [hne] at hget
      rw [if_pos (by simpa using hitem)]
      exact ((ih h.2 hget).cons item).trans (List.Perm.swap _ _ _)

/-- A key that is not there is not found. -/
theorem lookup_eq_none_iff : d.lookup key = none ↔ key ∉ d.map Prod.fst := by
  rw [List.lookup_eq_none_iff, List.mem_map]
  constructor
  · rintro h ⟨item, hitem, rfl⟩
    simpa using h item hitem
  · intro h item hitem
    have : key ≠ item.1 := fun hkey => h ⟨item, hitem, hkey.symm⟩
    simpa using this

/-- A key that no item has is not found. -/
theorem lookup_ofPairs_eq_none {items : List (κ × β)} (h : key ∉ items.map Prod.fst) :
    (ofPairs items).lookup key = none := by
  suffices hd : ∀ d : List (κ × β), key ∉ d.map Prod.fst →
      key ∉ (items.foldl (fun d item => put d item.1 item.2) d).map Prod.fst from
    lookup_eq_none_iff.mpr (hd [] List.not_mem_nil)
  induction items with
  | nil => exact fun _ hd => hd
  | cons item rest ih =>
    rw [List.map_cons, List.mem_cons, not_or] at h
    intro d hd
    refine ih h.2 _ ?_
    rw [keys_put]
    split
    · exact hd
    · rw [List.mem_append, List.mem_singleton, not_or]
      exact ⟨hd, h.1⟩

/-- With distinct keys every item is found. -/
theorem lookup_of_mem (h : (d.map Prod.fst).Nodup) (hmem : (key, value) ∈ d) :
    d.lookup key = some value := by
  induction d with
  | nil => cases hmem
  | cons item rest ih =>
    rw [List.map_cons, List.nodup_cons] at h
    rcases List.mem_cons.mp hmem with rfl | hrest
    · simp
    · have hne : (key == item.1) = false := by
        rw [beq_eq_false_iff_ne]
        rintro rfl
        exact h.1 (List.mem_map.mpr ⟨(item.1, value), hrest, rfl⟩)
      rw [List.lookup_cons, hne]
      exact ih h.2 hrest

theorem mem_of_lookup (h : d.lookup key = some value) : (key, value) ∈ d := by
  obtain ⟨before, after, rfl, -⟩ := List.lookup_eq_some_iff.mp h
  exact List.mem_append_right _ List.mem_cons_self

end Assoc

/-- A dictionary: its items, under distinct keys. -/
@[ext]
structure Dictionary (κ β : Type*) where
  items : List (κ × β)
  nodup : (items.map Prod.fst).Nodup

namespace Dictionary

variable {κ β : Type*} [DecidableEq κ]

/-- `{}`. -/
def empty : Dictionary κ β := ⟨[], List.nodup_nil⟩

/-- `d.get(key)`. -/
def get (d : Dictionary κ β) (key : κ) : Option β := d.items.lookup key

/-- `d[key] = value`. -/
def put (d : Dictionary κ β) (key : κ) (value : β) : Dictionary κ β :=
  ⟨Assoc.put d.items key value, Assoc.nodup_put d.nodup⟩

/-- `d.setdefault(key, value)`, as the dictionary after it. -/
def setDefault (d : Dictionary κ β) (key : κ) (value : β) : Dictionary κ β :=
  if (d.get key).isSome then d else d.put key value

/-- `d.pop(key, None)`, as the dictionary after it. -/
def erase (d : Dictionary κ β) (key : κ) : Dictionary κ β :=
  ⟨Assoc.erase d.items key, Assoc.nodup_erase d.nodup⟩

/-- The dictionary with these items, later ones winning. -/
def ofPairs (items : List (κ × β)) : Dictionary κ β :=
  ⟨Assoc.ofPairs items, Assoc.nodup_ofPairs items⟩

variable (d : Dictionary κ β) {key other : κ} {value : β}

@[simp] theorem get_put_self : (d.put key value).get key = some value :=
  Assoc.lookup_put_self d.items key value

@[simp] theorem get_erase_self : (d.erase key).get key = none :=
  Assoc.lookup_erase_self

variable {d}

theorem get_erase_of_ne (h : other ≠ key) : (d.erase key).get other = d.get other :=
  Assoc.lookup_erase_of_ne h

theorem get_put_of_ne (h : other ≠ key) : (d.put key value).get other = d.get other :=
  Assoc.lookup_put_of_ne h

/-- The keys a default is set for. -/
theorem isSome_get_setDefault :
    ((d.setDefault key value).get other).isSome = true ↔
      (d.get other).isSome = true ∨ other = key := by
  unfold setDefault
  by_cases hkey : (d.get key).isSome = true
  · rw [if_pos hkey]
    constructor
    · exact Or.inl
    · rintro (h | rfl)
      · exact h
      · exact hkey
  · rw [if_neg hkey]
    by_cases hother : other = key
    · subst hother
      simp
    · rw [get_put_of_ne hother]
      simp [hother]

theorem get_eq_some_iff : d.get key = some value ↔ (key, value) ∈ d.items :=
  ⟨Assoc.mem_of_lookup, Assoc.lookup_of_mem d.nodup⟩

/-- Dictionaries with the same items, in whatever order, read alike. -/
theorem get_eq_of_perm {d' : Dictionary κ β} (h : d.items.Perm d'.items) : d.get key = d'.get key := by
  apply Option.ext
  intro value
  rw [get_eq_some_iff, get_eq_some_iff]
  exact h.mem_iff

theorem ofPairs_items {items : List (κ × β)} (h : (items.map Prod.fst).Nodup) :
    (ofPairs items).items = items :=
  Assoc.ofPairs_of_nodup h

/-- A key that no item has is not found. -/
theorem get_ofPairs_eq_none {items : List (κ × β)} (h : key ∉ items.map Prod.fst) :
    (ofPairs items).get key = none :=
  Assoc.lookup_ofPairs_eq_none h

theorem get_eq_none_iff : d.get key = none ↔ key ∉ d.items.map Prod.fst :=
  Assoc.lookup_eq_none_iff

/-- Up to order, writing under a key is removing it and adding an item. -/
theorem perm_put : (d.put key value).items.Perm ((key, value) :: (d.erase key).items) :=
  Assoc.perm_put d.nodup

/-- Up to order, a dictionary is one of its items and the others. -/
theorem perm_cons_erase (h : d.get key = some value) :
    d.items.Perm ((key, value) :: (d.erase key).items) :=
  Assoc.perm_cons_erase d.nodup h

/-- Making a dictionary of a dictionary's items gives it back. -/
@[simp] theorem ofPairs_self : ofPairs d.items = d :=
  Dictionary.ext (ofPairs_items d.nodup)

end Dictionary
