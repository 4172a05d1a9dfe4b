/-
# KeyedSets — maps whose values are looked up by their keys

The map that gives every key of a set its value, as the set of its items, and
relations that are told by the map of the sets of their values.
-/
import Mathlib.Data.Finset.Image

namespace LmResiliency.KeyedSets

variable {κ α β : Type} [DecidableEq κ] [DecidableEq α] [DecidableEq β]

/-- `{key: value(key) for key in keys}` -/
def keyed (keys : Finset κ) (value : κ → β) : Finset (κ × β) :=
  keys.image fun key => (key, value key)

theorem mem_keyed {keys : Finset κ} {value : κ → β} {item : κ × β} :
    item ∈ keyed keys value ↔ item.1 ∈ keys ∧ value item.1 = item.2 := by
  rw [keyed, Finset.mem_image]
  constructor
  · rintro ⟨key, hkey, rfl⟩
    exact ⟨hkey, rfl⟩
  · rintro ⟨hkey, hvalue⟩
    exact ⟨item.1, hkey, by rw [hvalue]⟩

/-- Two maps are equal when their keys are and every key has one value. -/
theorem keyed_eq_iff {keys keys' : Finset κ} {value value' : κ → β} :
    keyed keys value = keyed keys' value' ↔
      keys = keys' ∧ ∀ key ∈ keys, value key = value' key := by
  constructor
  · intro h
    have hmem : ∀ key b, (key ∈ keys ∧ value key = b) ↔ key ∈ keys' ∧ value' key = b := by
      intro key b
      have hleft : (key, b) ∈ keyed keys value ↔ _ := mem_keyed
      have hright : (key, b) ∈ keyed keys' value' ↔ _ := mem_keyed
      rw [← hleft, h, hright]
    refine ⟨Finset.ext fun key => ?_, fun key hkey => ?_⟩
    · exact ⟨fun hkey => ((hmem key _).mp ⟨hkey, rfl⟩).1,
        fun hkey => ((hmem key _).mpr ⟨hkey, rfl⟩).1⟩
    · exact ((hmem key _).mp ⟨hkey, rfl⟩).2.symm
  · rintro ⟨rfl, hvalue⟩
    refine Finset.ext fun item => ?_
    rw [mem_keyed, mem_keyed]
    exact and_congr_right fun hkey => by rw [hvalue item.1 hkey]

/-- The keys of a relation and the set of the values of every key. -/
structure Tells (keys : Finset κ) (value : κ → Finset α) (rel : κ → α → Prop) : Prop where
  mem_keys : ∀ key, key ∈ keys ↔ ∃ a, rel key a
  mem_value : ∀ key a, a ∈ value key ↔ rel key a

/-- **Two relations** are equal exactly when their maps are. -/
theorem Tells.keyed_eq_iff {keys keys' : Finset κ} {value value' : κ → Finset α}
    {rel rel' : κ → α → Prop} (h : Tells keys value rel) (h' : Tells keys' value' rel') :
    keyed keys value = keyed keys' value' ↔ ∀ key a, rel key a ↔ rel' key a := by
  rw [KeyedSets.keyed_eq_iff]
  constructor
  · rintro ⟨rfl, hvalue⟩ key a
    constructor
    · intro hrel
      have hkey := (h.mem_keys key).mpr ⟨a, hrel⟩
      exact (h'.mem_value key a).mp (hvalue key hkey ▸ (h.mem_value key a).mpr hrel)
    · intro hrel
      have hkey := (h'.mem_keys key).mpr ⟨a, hrel⟩
      exact (h.mem_value key a).mp (hvalue key hkey ▸ (h'.mem_value key a).mpr hrel)
  · intro hrel
    refine ⟨Finset.ext fun key => ?_, fun key _ => Finset.ext fun a => ?_⟩
    · rw [h.mem_keys, h'.mem_keys]
      exact exists_congr fun a => hrel key a
    · rw [h.mem_value, h'.mem_value, hrel]

end LmResiliency.KeyedSets
