import Mathlib.Data.List.Nodup
import Mathlib.Data.List.Dedup

/-!
# Dictionaries that remember the order of insertion

A dictionary whose iteration follows the order in which its keys were first set: setting a key that is
there keeps its place, and a key that was removed comes back at the end. The entries carry the proof
that no key occurs twice, so a value is reached by one key only through `get?`.
-/

namespace StreamingTts.Lib

/-- A dictionary with its keys in the order of insertion. -/
structure OrderedDict (κ ν : Type) where
  entries : List (κ × ν)
  nodup : (entries.map Prod.fst).Nodup

namespace OrderedDict

variable {κ ν : Type} [DecidableEq κ] {d : OrderedDict κ ν} {k k' : κ} {v v' : ν}

/-- The dictionary without entries. -/
def empty : OrderedDict κ ν := ⟨[], List.nodup_nil⟩

/-- The values, in the order of their keys. -/
def values (d : OrderedDict κ ν) : List ν := d.entries.map Prod.snd

/-- The number of keys. -/
def size (d : OrderedDict κ ν) : Nat := d.entries.length

/-- The value of a key. -/
def get? (d : OrderedDict κ ν) (k : κ) : Option ν :=
  (d.entries.find? fun entry => entry.1 = k).map Prod.snd

theorem get?_eq_some_iff : d.get? k = some v ↔ (k, v) ∈ d.entries := by
  unfold get?
  constructor
  · intro h
    obtain ⟨⟨k', v'⟩, hfind, rfl⟩ := Option.map_eq_some_iff.1 h
    have hkey : k' = k := by simpa using List.find?_some hfind
    rw [← hkey]
    exact List.mem_of_find?_eq_some hfind
  · intro h
    cases hfind : d.entries.find? fun entry => entry.1 = k with
    | none => exact absurd (List.find?_eq_none.1 hfind (k, v) h) (by simp)
    | some entry =>
        have hkey : entry.1 = k := by simpa using List.find?_some hfind
        have hsame : entry = (k, v) :=
          List.inj_on_of_nodup_map d.nodup (List.mem_of_find?_eq_some hfind) h hkey
        rw [hsame]
        rfl

theorem get?_eq_none_iff : d.get? k = none ↔ ∀ entry ∈ d.entries, entry.1 ≠ k := by
  simp [get?, List.find?_eq_none]

theorem mem_values : v ∈ d.values ↔ ∃ k, d.get? k = some v := by
  simp [values, get?_eq_some_iff]

/-- The entries with the value of a key replaced. -/
def replace (entries : List (κ × ν)) (k : κ) (v : ν) : List (κ × ν) :=
  entries.map fun entry => if entry.1 = k then (k, v) else entry

omit [DecidableEq κ] in
theorem map_fst_congr (f : κ × ν → κ × ν) (hf : ∀ entry, (f entry).1 = entry.1)
    (entries : List (κ × ν)) : (entries.map f).map Prod.fst = entries.map Prod.fst := by
  rw [List.map_map]
  exact List.map_congr_left fun entry _ => hf entry

theorem replace_keys (entries : List (κ × ν)) (k : κ) (v : ν) :
    (replace entries k v).map Prod.fst = entries.map Prod.fst := by
  refine map_fst_congr _ (fun entry => ?_) entries
  split
  · next h => exact h.symm
  · rfl

/-- `d[k] = v`. -/
def set (d : OrderedDict κ ν) (k : κ) (v : ν) : OrderedDict κ ν :=
  if h : ∃ entry ∈ d.entries, entry.1 = k then
    ⟨replace d.entries k v, by rw [replace_keys]; exact d.nodup⟩
  else
    ⟨d.entries ++ [(k, v)], by
      rw [List.map_append, List.nodup_append]
      refine ⟨d.nodup, List.nodup_singleton _, ?_⟩
      intro a ha a' ha' hsame
      obtain ⟨entry, hentry, rfl⟩ := List.mem_map.1 ha
      exact h ⟨entry, hentry, by simpa [hsame] using ha'⟩⟩

theorem entries_set_of_get?_eq_none (h : d.get? k = none) :
    (d.set k v).entries = d.entries ++ [(k, v)] := by
  have hne : ¬ ∃ entry ∈ d.entries, entry.1 = k := by
    rintro ⟨entry, hentry, hkey⟩
    exact get?_eq_none_iff.1 h entry hentry hkey
  simp only [set, hne, dite_false]

@[simp] theorem get?_set (k k' : κ) (v : ν) :
    (d.set k v).get? k' = if k' = k then some v else d.get? k' := by
  rw [Option.ext_iff]
  intro w
  rw [get?_eq_some_iff]
  unfold set
  split
  · next hpresent =>
    obtain ⟨entry, hentry, hkey⟩ := hpresent
    simp only [replace, List.mem_map]
    constructor
    · rintro ⟨entry', hentry', heq⟩
      split at heq
      · cases heq
        simp
      · next hne =>
        cases heq
        simp only [hne, if_false]
        exact get?_eq_some_iff.2 hentry'
    · intro h
      split at h
      · next hsame =>
        cases h
        exact ⟨entry, hentry, by simp [hkey, hsame]⟩
      · next hne => exact ⟨(k', w), get?_eq_some_iff.1 h, by simp [hne]⟩
  · next habsent =>
    rw [List.mem_append, List.mem_singleton]
    constructor
    · rintro (hmem | heq)
      · have hne : k' ≠ k := fun hsame => habsent ⟨(k', w), hmem, hsame⟩
        simp only [hne, if_false]
        exact get?_eq_some_iff.2 hmem
      · cases heq
        simp
    · intro h
      split at h
      · next hsame =>
        cases h
        exact .inr (by rw [hsame])
      · exact .inl (get?_eq_some_iff.1 h)

/-- `d.pop(k, None)`, as far as the dictionary goes. -/
def erase (d : OrderedDict κ ν) (k : κ) : OrderedDict κ ν :=
  ⟨d.entries.filter fun entry => entry.1 ≠ k,
    d.nodup.sublist (List.filter_sublist.map Prod.fst)⟩

@[simp] theorem get?_erase (k k' : κ) :
    (d.erase k).get? k' = if k' = k then none else d.get? k' := by
  rw [Option.ext_iff]
  intro w
  rw [get?_eq_some_iff]
  simp only [erase, List.mem_filter, decide_eq_true_eq]
  split
  · next hsame =>
    constructor
    · rintro ⟨_, hne⟩
      exact absurd hsame hne
    · intro h
      cases h
  · next hne =>
    rw [get?_eq_some_iff]
    exact ⟨fun h => h.1, fun h => ⟨h, hne⟩⟩

@[simp] theorem get?_empty (k : κ) : (empty : OrderedDict κ ν).get? k = none := rfl

/-- Values that determine their keys occur once. -/
theorem values_nodup (h : ∀ k k' v, d.get? k = some v → d.get? k' = some v → k = k') :
    d.values.Nodup := by
  refine List.Nodup.map_on ?_ (List.Nodup.of_map _ d.nodup)
  rintro ⟨k, v⟩ hmem ⟨k', v'⟩ hmem' heq
  cases heq
  rw [h k k' v (get?_eq_some_iff.2 hmem) (get?_eq_some_iff.2 hmem')]

end OrderedDict

end StreamingTts.Lib
