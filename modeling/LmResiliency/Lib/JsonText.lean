/-
# JsonText — the dumped text is one printable line

With `ensure_ascii` every character of the text is printable ASCII, so a
record can be a line of a log; and a record whose fields are listed in key
order, with plain values, is its own sorted form.
-/
import LmResiliency.Lib.JsonRoundTrip

namespace LmResiliency.Json

/-- A printable ASCII character. -/
def Printable (c : Char) : Prop := 32 ≤ c.toNat ∧ c.toNat ≤ 126

instance (c : Char) : Decidable (Printable c) := inferInstanceAs (Decidable (_ ∧ _))

theorem printable_of_all {cs : List Char} (h : (cs.all fun c => Printable c) = true) :
    ∀ c ∈ cs, Printable c := by
  intro c hc
  exact of_decide_eq_true (List.all_eq_true.mp h c hc)

theorem printable_hexDigit (n : Nat) : Printable (hexDigit n) := by
  have h : ∀ m < 16, 32 ≤ (Nat.digitChar m).toNat ∧ (Nat.digitChar m).toNat ≤ 126 := by decide
  exact h (n % 16) (Nat.mod_lt _ (by decide))

theorem printable_hex4 (n : Nat) : ∀ c ∈ hex4 n, Printable c := by
  simp only [hex4, List.mem_cons, List.not_mem_nil, or_false]
  rintro c (rfl | rfl | rfl | rfl) <;> exact printable_hexDigit _

theorem printable_of_isDigit {c : Char} (h : c.isDigit = true) : Printable c := by
  have hn := Text.isDigit_toNat h
  exact ⟨by omega, by omega⟩

theorem printable_escapeChar (d : Char) : ∀ c ∈ escapeChar d, Printable c := by
  have hback : Printable '\\' := by decide
  have hu : Printable 'u' := by decide
  intro c hc
  rw [escapeChar] at hc
  split at hc
  · rename_i e he
    have hshort : ∀ p ∈ shortEscapes, Printable p.2 := by decide
    obtain ⟨p, hp, rfl⟩ : ∃ p ∈ shortEscapes, p.2 = e := by
      obtain ⟨l₁, l₂, hl, -⟩ := List.lookup_eq_some_iff.mp he
      exact ⟨(d, e), by rw [hl]; simp, rfl⟩
    rcases List.mem_pair.mp hc with rfl | rfl
    · exact hback
    · exact hshort p hp
  · simp only at hc
    split at hc
    · rename_i hd
      rw [List.mem_singleton.mp hc]
      exact hd
    · split at hc
      · rcases List.mem_cons.mp hc with rfl | hc
        · exact hback
        · rcases List.mem_cons.mp hc with rfl | hc
          · exact hu
          · exact printable_hex4 _ c hc
      · simp only [List.cons_append, List.mem_cons, List.mem_append] at hc
        rcases hc with rfl | rfl | hc | rfl | rfl | hc
        · exact hback
        · exact hu
        · exact printable_hex4 _ c hc
        · exact hback
        · exact hu
        · exact printable_hex4 _ c hc

theorem printable_writeStr (s : String) : ∀ c ∈ writeStr s, Printable c := by
  have hquote : Printable '"' := by decide
  intro c hc
  simp only [writeStr, List.cons_append, List.mem_cons, List.mem_append, List.mem_flatMap,
    List.not_mem_nil, or_false] at hc
  rcases hc with rfl | ⟨d, -, hd⟩ | rfl
  · exact hquote
  · exact printable_escapeChar d c hd
  · exact hquote

theorem printable_str (n : Int) : ∀ c ∈ (Text.str n).toList, Printable c := by
  intro c hc
  rcases Text.str_chars hc with rfl | h
  · decide
  · exact printable_of_isDigit h

mutual

theorem printable_write : ∀ {v : Json}, Plain v → ∀ c ∈ write v, Printable c
  | .null, _ => printable_of_all (by decide)
  | .bool true, _ => printable_of_all (by decide)
  | .bool false, _ => printable_of_all (by decide)
  | .float _, h => h.elim
  | .int n, _ => printable_str n
  | .str s, _ => printable_writeStr s
  | .arr [], _ => printable_of_all (by decide)
  | .arr (v :: vs), h => by
      intro c hc
      simp only [write, List.cons_append, List.mem_cons, List.mem_append] at hc
      rcases hc with rfl | hc | hc
      · decide
      · exact printable_write h.1 c hc
      · exact printable_writeItems h.2 c hc
  | .obj [], _ => printable_of_all (by decide)
  | .obj ((k, v) :: ms), h => by
      intro c hc
      simp only [write, List.cons_append, List.append_assoc, List.mem_cons,
        List.mem_append] at hc
      rcases hc with rfl | hc | rfl | hc | hc
      · decide
      · exact printable_writeStr k c hc
      · decide
      · exact printable_write h.2.1 c hc
      · exact printable_writeMembers h.2.2 c hc

theorem printable_writeItems : ∀ {vs : List Json}, PlainItems vs →
    ∀ c ∈ writeItems vs, Printable c
  | [], _ => printable_of_all (by decide)
  | v :: vs, h => by
      intro c hc
      simp only [writeItems, List.cons_append, List.mem_cons, List.mem_append] at hc
      rcases hc with rfl | hc | hc
      · decide
      · exact printable_write h.1 c hc
      · exact printable_writeItems h.2 c hc

theorem printable_writeMembers : ∀ {ms : List (String × Json)}, PlainMembers ms →
    ∀ c ∈ writeMembers ms, Printable c
  | [], _ => printable_of_all (by decide)
  | (k, v) :: ms, h => by
      intro c hc
      simp only [writeMembers, List.cons_append, List.append_assoc, List.mem_cons,
        List.mem_append] at hc
      rcases hc with rfl | hc | rfl | hc | hc
      · decide
      · exact printable_writeStr k c hc
      · decide
      · exact printable_write h.1 c hc
      · exact printable_writeMembers h.2 c hc

end

/-- **The dumped text is printable ASCII.** -/
theorem printable_dumps {v : Json} (hv : Plain v) : ∀ c ∈ (dumps v).toList, Printable c := by
  rw [dumps, String.toList_ofList]
  exact printable_write (plain_canon hv)

/-- A record listed in key order, its values sorted already. -/
theorem canon_obj_eq_self {ms : List (String × Json)} (hk : (keys ms).Pairwise (· ≤ ·))
    (hv : ∀ m ∈ ms, canon m.2 = m.2) : canon (.obj ms) = .obj ms := by
  have hc : canonMembers ms = ms := by
    clear hk
    induction ms with
    | nil => rfl
    | cons m ms ih =>
        obtain ⟨k, v⟩ := m
        have h := List.forall_mem_cons.mp hv
        rw [canonMembers, h.1, ih h.2]
  have hs : sortMembers ms = ms := by
    rw [keys, List.pairwise_map] at hk
    exact List.Pairwise.insertionSort_eq hk
  rw [canon, hc, hs]

/-- A record that is written as it is listed is read back as it is listed. -/
theorem loads_dumps_record {ms : List (String × Json)} (hplain : Plain (.obj ms))
    (hk : (keys ms).Pairwise (· ≤ ·)) (hv : ∀ m ∈ ms, canon m.2 = m.2) :
    loads (dumps (.obj ms)) = some (.obj ms) := by
  rw [loads_dumps hplain, canon_obj_eq_self hk hv]

end LmResiliency.Json
