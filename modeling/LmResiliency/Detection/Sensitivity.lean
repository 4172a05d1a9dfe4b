/-
# Sensitivity — which corrupted words change a signature

Two tensors that differ in one word are followed through the fold: at every
level one column of one row differs.  A word on the right of a level is
multiplied by the salt of the level, which is even at every other level, and
loses as many high bits as the salt has factors of two.  Everything else,
the chain included, is one to one.

The main result is `signature_changes_iff`, for one changed word.  Two changed
words may always cancel.
-/
import LmResiliency.Detection.Signature

namespace LmResiliency.Detection

/-! ## One level -/

/-- The number of high bits that a word in a column of a row of some width
loses in the fold, from a level on. -/
def lostBits (level width column : Nat) : Nat :=
  if 1 < width then
    let half := (width + 1) / 2
    if column < half then lostBits (level + 1) half column
    else padicValNat 2 (level + 1) + lostBits (level + 1) half (column - half)
  else 0
termination_by width

theorem padicValNat_salt (level : Nat) :
    padicValNat 2 (signaturePrime * (level + 1)) = padicValNat 2 (level + 1) := by
  have hodd : padicValNat 2 signaturePrime = 0 :=
    padicValNat.eq_zero_of_not_dvd (by decide)
  rw [padicValNat.mul (by decide) (Nat.succ_ne_zero level), hodd, Nat.zero_add]

theorem lowEq_mul_salt {m : Nat} (hm : m ≤ 64) (level : Nat) (x y : Word) :
    LowEq m (x * salt level) (y * salt level) ↔ LowEq (m - padicValNat 2 (level + 1)) x y := by
  rw [salt, lowEq_mul hm (Nat.mul_ne_zero (by decide) (Nat.succ_ne_zero level)),
    padicValNat_salt]

theorem evenRow_set {row : List Word} {column : Nat} (h : column < row.length) (z : Word) :
    evenRow (row.set column z) = (evenRow row).set column z := by
  rw [evenRow, evenRow, List.length_set]
  split
  · rw [List.set_append_left _ _ h]
  · rfl

theorem zipWith_set_left {α β γ : Type} (f : α → β → γ) (as : List α) (bs : List β) (i : Nat)
    (z : α) (b : β) (hb : bs[i]? = some b) :
    List.zipWith f (as.set i z) bs = (List.zipWith f as bs).set i (f z b) := by
  induction as generalizing bs i with
  | nil => simp
  | cons a as ih =>
      cases bs with
      | nil => simp at hb
      | cons b' bs =>
          cases i with
          | zero =>
              obtain rfl : b' = b := by simpa using hb
              rfl
          | succ i => simp [ih bs i (by simpa using hb)]

theorem zipWith_set_right {α β γ : Type} (f : α → β → γ) (as : List α) (bs : List β) (i : Nat)
    (z : β) (a : α) (ha : as[i]? = some a) :
    List.zipWith f as (bs.set i z) = (List.zipWith f as bs).set i (f a z) := by
  rw [List.zipWith_comm, zipWith_set_left _ bs as i z a ha, List.zipWith_comm]

theorem foldLevel_eq (level : Nat) (row : List Word) :
    foldLevel level row = List.zipWith (fun left right => left ^^^ right * salt level)
      ((evenRow row).take ((row.length + 1) / 2)) ((evenRow row).drop ((row.length + 1) / 2)) := by
  have hhalf : (evenRow row).length / 2 = (row.length + 1) / 2 := by
    rw [evenRow_length]
    omega
  rw [← hhalf]
  rfl

theorem foldLevel_set_left (level : Nat) {row : List Word} {column : Nat}
    (h : column < row.length) (hleft : column < (row.length + 1) / 2) :
    ∃ right, ∀ z, foldLevel level (row.set column z) =
      (foldLevel level row).set column (z ^^^ right * salt level) := by
  have hright : column < ((evenRow row).drop ((row.length + 1) / 2)).length := by
    rw [List.length_drop, evenRow_length]
    omega
  refine ⟨((evenRow row).drop ((row.length + 1) / 2))[column], fun z => ?_⟩
  rw [foldLevel_eq, foldLevel_eq, List.length_set, evenRow_set h, List.take_set, List.drop_set,
    if_pos hleft, zipWith_set_left _ _ _ _ _ _ (List.getElem?_eq_getElem hright)]

theorem foldLevel_set_right (level : Nat) {row : List Word} {column : Nat}
    (h : column < row.length) (hright : ¬ column < (row.length + 1) / 2) :
    ∃ left, ∀ z, foldLevel level (row.set column z) =
      (foldLevel level row).set (column - (row.length + 1) / 2) (left ^^^ z * salt level) := by
  have hleft : column - (row.length + 1) / 2 <
      ((evenRow row).take ((row.length + 1) / 2)).length := by
    rw [List.length_take, evenRow_length]
    omega
  have htake : ∀ z, ((evenRow row).set column z).take ((row.length + 1) / 2) =
      (evenRow row).take ((row.length + 1) / 2) := by
    intro z
    rw [List.take_set, List.set_eq_of_length_le]
    rw [List.length_take]
    omega
  refine ⟨((evenRow row).take ((row.length + 1) / 2))[column - (row.length + 1) / 2],
    fun z => ?_⟩
  rw [foldLevel_eq, foldLevel_eq, List.length_set, evenRow_set h, htake, List.drop_set,
    if_neg hright, zipWith_set_right _ _ _ _ _ _ (List.getElem?_eq_getElem hleft)]

/-! ## A row -/

/-- The fold of a row in which one word varies: the result depends on its low
bits, all but those that are lost. -/
theorem foldRow_set (level : Nat) (row : List Word) (column : Nat) (h : column < row.length) :
    ∃ f : Word → Word, (∀ z, foldRow level (row.set column z) = [f z]) ∧
      ∀ m ≤ 64, ∀ x y, LowEq m (f x) (f y) ↔
        LowEq (m - lostBits level row.length column) x y := by
  induction hn : row.length using Nat.strong_induction_on generalizing level row column with
  | _ n ih =>
    by_cases hwidth : 1 < row.length
    · have hlen : (foldLevel level row).length = (n + 1) / 2 := by rw [foldLevel_length, hn]
      have hstep : ∀ z, foldRow level (row.set column z) =
          foldRow (level + 1) (foldLevel level (row.set column z)) := by
        intro z
        rw [foldRow, List.length_set, if_pos hwidth]
      have hlost : lostBits level n column = if column < (n + 1) / 2 then
          lostBits (level + 1) ((n + 1) / 2) column else
          padicValNat 2 (level + 1) +
            lostBits (level + 1) ((n + 1) / 2) (column - (n + 1) / 2) := by
        rw [lostBits, if_pos (hn ▸ hwidth)]
      by_cases hleft : column < (row.length + 1) / 2
      · obtain ⟨right, hset⟩ := foldLevel_set_left level h hleft
        obtain ⟨f, hf, hlow⟩ := ih _ (by omega) (level + 1) (foldLevel level row) column
          (by omega) hlen
        refine ⟨fun z => f (z ^^^ right * salt level), fun z => ?_, fun m hm x y => ?_⟩
        · rw [hstep, hset, hf]
        · rw [hlow m hm, lowEq_xor_right, hlost, if_pos (hn ▸ hleft)]
      · obtain ⟨left, hset⟩ := foldLevel_set_right level h hleft
        obtain ⟨f, hf, hlow⟩ := ih _ (by omega) (level + 1) (foldLevel level row)
          (column - (row.length + 1) / 2) (by omega) hlen
        refine ⟨fun z => f (left ^^^ z * salt level), fun z => ?_, fun m hm x y => ?_⟩
        · rw [hstep, hset, hf]
        · rw [hlow m hm, lowEq_xor_left, lowEq_mul_salt (by omega), hlost,
            if_neg (hn ▸ hleft), hn, Nat.sub_sub, Nat.add_comm]
    · obtain ⟨z₀, rfl⟩ : ∃ z, row = [z] := List.length_eq_one_iff.mp (by omega)
      obtain rfl : column = 0 := by simpa using h
      refine ⟨id, fun z => ?_, fun m hm x y => ?_⟩
      · rw [foldRow]
        rfl
      · rw [lostBits, if_neg (hn ▸ hwidth), Nat.sub_zero]
        rfl

/-! ## All rows -/

/-- The number of high bits that a word of a tensor loses. -/
def lostBitsAt (numElements index : Nat) : Nat :=
  if numElements ≤ numChunks then 0
  else lostBits 0 (foldWidth numElements) (index % foldWidth numElements)

theorem chunk_set (flat : List Word) {width : Nat} (hwidth : 0 < width) (index chunk : Nat)
    (z : Word) :
    ((flat.set index z).drop (chunk * width)).take width =
      if chunk = index / width then
        ((flat.drop (chunk * width)).take width).set (index % width) z
      else (flat.drop (chunk * width)).take width := by
  have hindex := Nat.div_add_mod index width
  have hmod := Nat.mod_lt index hwidth
  rw [List.drop_set]
  by_cases hbefore : index < chunk * width
  · have hne : chunk ≠ index / width := by
      rintro rfl
      exact absurd (Nat.div_mul_le_self index width) (not_le.mpr hbefore)
    rw [if_pos hbefore, if_neg hne]
  · rw [if_neg hbefore, List.take_set]
    by_cases heq : chunk = index / width
    · rw [if_pos heq, heq, ← Nat.mod_eq_sub_div_mul]
    · have hafter : width ≤ index - chunk * width := by
        have hlt : chunk < index / width :=
          lt_of_le_of_ne ((Nat.le_div_iff_mul_le hwidth).mpr (not_lt.mp hbefore)) heq
        have hle : (chunk + 1) * width ≤ index := (Nat.le_div_iff_mul_le hwidth).mp hlt
        rw [Nat.add_mul, Nat.one_mul] at hle
        omega
      rw [if_neg heq, List.set_eq_of_length_le]
      exact (List.length_take_le _ _).trans hafter

theorem padTo_set {flat : List Word} {index : Nat} (h : index < flat.length) (padded : Nat)
    (z : Word) : padTo padded (flat.set index z) = (padTo padded flat).set index z := by
  rw [padTo, padTo, List.length_set, List.set_append_left _ _ h]

theorem foldWidth_covers (numElements : Nat) :
    numElements ≤ numChunks * foldWidth numElements := by
  rw [foldWidth, numChunks]
  omega

/-- The blocks of a tensor in which one word varies: one of them varies with its
low bits, all but those that are lost. -/
theorem xorFoldToBlocks_set (flat : List Word) (index : Nat) (h : index < flat.length) :
    ∃ (f : Word → Word) (block : Nat), block < (xorFoldToBlocks flat).length ∧
      (∀ z, xorFoldToBlocks (flat.set index z) = (xorFoldToBlocks flat).set block (f z)) ∧
      ∀ x y, f x = f y ↔ LowEq (64 - lostBitsAt flat.length index) x y := by
  by_cases hsmall : flat.length ≤ numChunks
  · refine ⟨id, index, ?_, fun z => ?_, fun x y => ?_⟩
    · rw [xorFoldToBlocks, if_pos hsmall]
      exact h
    · rw [xorFoldToBlocks, xorFoldToBlocks, List.length_set, if_pos hsmall, if_pos hsmall]
      rfl
    · rw [lostBitsAt, if_pos hsmall]
      exact lowEq_width.symm
  · have hwidth : 0 < foldWidth flat.length := by
      rw [foldWidth]
      rw [numChunks] at hsmall ⊢
      omega
    have hchunk : index / foldWidth flat.length < numChunks :=
      (Nat.div_lt_iff_lt_mul hwidth).mpr (h.trans_le (foldWidth_covers flat.length))
    let row := ((padTo (numChunks * foldWidth flat.length) flat).drop
      (index / foldWidth flat.length * foldWidth flat.length)).take (foldWidth flat.length)
    have hrow : row.length = foldWidth flat.length := by
      have hpadded : (padTo (numChunks * foldWidth flat.length) flat).length =
          numChunks * foldWidth flat.length := by
        rw [padTo, List.length_append, List.length_replicate]
        have hle := foldWidth_covers flat.length
        omega
      have hend : (index / foldWidth flat.length + 1) * foldWidth flat.length ≤
          numChunks * foldWidth flat.length := Nat.mul_le_mul_right _ hchunk
      rw [Nat.add_mul, Nat.one_mul] at hend
      rw [List.length_take, List.length_drop, hpadded]
      omega
    obtain ⟨f, hf, hlow⟩ := foldRow_set 0 row (index % foldWidth flat.length)
      (by rw [hrow]; exact Nat.mod_lt _ hwidth)
    refine ⟨f, index / foldWidth flat.length, ?_, fun z => ?_, fun x y => ?_⟩
    · rw [xorFoldToBlocks, if_neg hsmall]
      simpa [chunks] using hchunk
    · rw [xorFoldToBlocks, xorFoldToBlocks, List.length_set, if_neg hsmall, if_neg hsmall]
      dsimp only
      rw [padTo_set h]
      refine List.ext_getElem (by simp [chunks]) fun c hc hc' => ?_
      rw [List.getElem_set]
      simp only [chunks, List.getElem_map, List.getElem_range, chunk_set _ hwidth]
      by_cases hblock : c = index / foldWidth flat.length
      · rw [if_pos hblock, if_pos hblock.symm, hblock]
        exact congrArg (·.headD 0) (hf z)
      · rw [if_neg hblock, if_neg (Ne.symm hblock)]
    · rw [← lowEq_width, hlow 64 le_rfl, hrow, lostBitsAt, if_neg hsmall]

/-! ## The chain -/

theorem mul_prime_inj {x y : Word} :
    x * BitVec.ofNat 64 signaturePrime = y * BitVec.ofNat 64 signaturePrime ↔ x = y := by
  have hodd : padicValNat 2 signaturePrime = 0 := padicValNat.eq_zero_of_not_dvd (by decide)
  rw [← lowEq_width, lowEq_mul le_rfl (by decide), hodd, Nat.sub_zero, lowEq_width]

theorem mix_left_inj {h h' : Word} (val : Int) : mix h val = mix h' val ↔ h = h' := by
  rw [mix, mix, mul_prime_inj, BitVec.xor_left_inj]

theorem mix_right_inj (h : Word) {val val' : Int} :
    mix h val = mix h val' ↔ BitVec.ofInt 64 val = BitVec.ofInt 64 val' := by
  rw [mix, mix, mul_prime_inj, BitVec.xor_right_inj]

theorem foldl_mix_inj (vals : List Int) {h h' : Word} :
    vals.foldl mix h = vals.foldl mix h' ↔ h = h' := by
  induction vals generalizing h h' with
  | nil => exact Iff.rfl
  | cons val vals ih =>
      rw [List.foldl_cons, List.foldl_cons, ih, mix_left_inj]

theorem ofInt_signed (h : Word) : BitVec.ofInt 64 (signed h) = h := by
  have hlt := h.isLt
  refine BitVec.eq_of_toNat_eq ?_
  rw [BitVec.toNat_ofInt, signed]
  split <;> omega

theorem signed_inj {h h' : Word} : signed h = signed h' ↔ h = h' := by
  constructor
  · intro heq
    rw [← ofInt_signed h, heq, ofInt_signed]
  · exact congrArg signed

/-- The chain is one to one in each of its values. -/
theorem finalizeSignature_set (vals : List Int) (i : Nat) (hi : i < vals.length) (x y : Int)
    (payloadNbytes : Nat) :
    finalizeSignature (vals.set i x) payloadNbytes =
        finalizeSignature (vals.set i y) payloadNbytes ↔
      BitVec.ofInt 64 x = BitVec.ofInt 64 y := by
  have hset : ∀ z, vals.set i z = vals.take i ++ z :: vals.drop (i + 1) := by
    intro z
    rw [List.set_eq_take_append_cons_drop, if_pos hi]
  rw [finalizeSignature, finalizeSignature, signed_inj, mix_left_inj, hset, hset,
    List.foldl_append, List.foldl_append, List.foldl_cons, List.foldl_cons, foldl_mix_inj,
    mix_right_inj]

theorem ofInt_finalizeSignature {vals vals' : List Int} {payloadNbytes : Nat} :
    BitVec.ofInt 64 (finalizeSignature vals payloadNbytes) =
        BitVec.ofInt 64 (finalizeSignature vals' payloadNbytes) ↔
      finalizeSignature vals payloadNbytes = finalizeSignature vals' payloadNbytes := by
  rw [finalizeSignature, finalizeSignature, ofInt_signed, ofInt_signed, signed_inj]

/-! ## The signature -/

/-- The signature of a tensor, from its words on. -/
def signatureOfWords (dtype : DType) (shape : List Nat) (words : List Word) : Int :=
  let payloadNbytes := shape.prod * dtype.itemsize
  finalizeSignature (finalizeSignature ((xorFoldToBlocks words).map signed) payloadNbytes ::
    (shape.length : Int) :: shape.map (fun n : Nat => (n : Int)) ++ [signatureString dtype.name])
    payloadNbytes

theorem computeTensorSignature_eq (tensor : Tensor) : computeTensorSignature tensor =
    signatureOfWords tensor.dtype tensor.shape (toInt64View tensor) := rfl

/-- **Two values of one word** have one signature exactly when they agree in the bits
that the fold keeps. -/
theorem signatureOfWords_set (dtype : DType) (shape : List Nat) (words : List Word) (index : Nat)
    (h : index < words.length) (x y : Word) :
    signatureOfWords dtype shape (words.set index x) =
        signatureOfWords dtype shape (words.set index y) ↔
      LowEq (64 - lostBitsAt words.length index) x y := by
  obtain ⟨f, block, hblock, hset, hlow⟩ := xorFoldToBlocks_set words index h
  have hcontent : ∀ (content content' : Int) (rest : List Int) (payloadNbytes : Nat),
      finalizeSignature (content :: rest) payloadNbytes =
          finalizeSignature (content' :: rest) payloadNbytes ↔
        BitVec.ofInt 64 content = BitVec.ofInt 64 content' := fun content content' rest nbytes =>
    finalizeSignature_set (content :: rest) 0 (Nat.succ_pos _) content content' nbytes
  simp only [signatureOfWords, List.cons_append]
  rw [hcontent, ← hlow]
  rw [ofInt_finalizeSignature, hset, hset, List.map_set, List.map_set,
    finalizeSignature_set _ _ (by simpa using hblock), ofInt_signed, ofInt_signed]

/-- **A signature changes** exactly when the word that was corrupted changes in a bit
that the fold does not lose. -/
theorem signature_changes_iff (tensor corrupted : Tensor)
    (hdtype : corrupted.dtype = tensor.dtype) (hshape : corrupted.shape = tensor.shape)
    (index : Nat) (h : index < (toInt64View tensor).length) (word : Word)
    (hwords : toInt64View corrupted = (toInt64View tensor).set index word) :
    computeTensorSignature corrupted ≠ computeTensorSignature tensor ↔
      ¬ LowEq (64 - lostBitsAt (toInt64View tensor).length index) word
        ((toInt64View tensor)[index]) := by
  have hself : toInt64View tensor = (toInt64View tensor).set index (toInt64View tensor)[index] :=
    (List.set_getElem_self h).symm
  rw [computeTensorSignature_eq, computeTensorSignature_eq, hdtype, hshape, hwords]
  conv_lhs => rw [ne_eq]; arg 1; rhs; rw [hself]
  rw [signatureOfWords_set _ _ _ _ h]

/-! ### A tensor of 1025 words

The fold has two levels, and the second one doubles the words on its right. -/

/-- The bytes of a word. -/
def bytesOfWord (word : Word) : List (BitVec 8) :=
  (List.range 8).map fun i => (word >>> (8 * i)).setWidth 8

theorem wordsOfBytes_flatMap {words : List Word}
    (h : ∀ word ∈ words, wordOfBytes (bytesOfWord word) = word) :
    wordsOfBytes (words.flatMap bytesOfWord) = words := by
  have hlen : ∀ words : List Word, (words.flatMap bytesOfWord).length = 8 * words.length := by
    intro words
    induction words with
    | nil => rfl
    | cons word words ih =>
        rw [List.flatMap_cons, List.length_append, ih, List.length_cons]
        simp only [bytesOfWord, List.length_map, List.length_range]
        omega
  induction words with
  | nil => rfl
  | cons word words ih =>
      have hword : (bytesOfWord word).length = 8 := by simp [bytesOfWord]
      have ih' := ih fun word hmem => h word (List.mem_cons_of_mem _ hmem)
      rw [wordsOfBytes, hlen, Nat.mul_div_cancel_left _ (by decide)] at ih' ⊢
      rw [List.length_cons, List.range_succ_eq_map, List.map_cons, List.map_map, List.flatMap_cons]
      refine congrArg₂ List.cons ?_ ?_
      · rw [Nat.mul_zero, List.drop_zero, List.take_left' hword]
        exact h word List.mem_cons_self
      · refine Eq.trans (List.map_congr_left fun i _ => ?_) ih'
        have hdrop : 8 * (i + 1) = (bytesOfWord word).length + 8 * i := by
          rw [hword]
          omega
        show wordOfBytes (((bytesOfWord word ++ _).drop (8 * (i + 1))).take 8) = _
        rw [hdrop, List.drop_length_add_append]

/-- An `int64` tensor of some words. -/
def int64Tensor (words : List Word) : Tensor where
  dtype := ⟨"torch.int64", 8⟩
  shape := [words.length]
  payload := words.flatMap bytesOfWord
  payload_length := by simp [bytesOfWord, List.length_flatMap, Nat.mul_comm]

theorem toInt64View_int64Tensor {words : List Word}
    (h : ∀ word ∈ words, wordOfBytes (bytesOfWord word) = word) :
    toInt64View (int64Tensor words) = words := by
  have hlen : (int64Tensor words).payload.length % 8 = 0 := by
    rw [(int64Tensor words).payload_length]
    exact Nat.mul_mod_left _ _
  rw [toInt64View, hlen, if_neg (not_not.mpr rfl)]
  exact wordsOfBytes_flatMap h

/-- Zeros, of which the second one may be another word. -/
def sampleWords (word : Word) : List Word := (List.replicate 1025 0#64).set 1 word

theorem view_sampleWords {word : Word} (h : wordOfBytes (bytesOfWord word) = word) :
    toInt64View (int64Tensor (sampleWords word)) = sampleWords word := by
  refine toInt64View_int64Tensor fun w hw => ?_
  rcases List.mem_or_eq_of_mem_set hw with hw | rfl
  · rw [List.eq_of_mem_replicate hw]
    decide
  · exact h

theorem sampleWords_length (word : Word) : (sampleWords word).length = 1025 := by
  rw [sampleWords, List.length_set, List.length_replicate]

/-- The second word of 1025 loses its highest bit. -/
theorem lostBitsAt_sample : lostBitsAt 1025 1 = 1 := by
  have hend : lostBits 2 1 0 = 0 := by rw [lostBits, if_neg (by decide)]
  have hright : lostBits 1 2 1 = 1 := by
    rw [lostBits, if_pos (by decide)]
    show padicValNat 2 2 + lostBits 2 1 0 = 1
    rw [hend, padicValNat_self]
  show lostBits 0 3 1 = 1
  rw [lostBits, if_pos (by decide)]
  exact hright

theorem int64Tensor_dtype (words : List Word) : (int64Tensor words).dtype = ⟨"torch.int64", 8⟩ := rfl

theorem int64Tensor_shape (words : List Word) : (int64Tensor words).shape = [words.length] := rfl

theorem shape_sampleWords (word : Word) : (int64Tensor (sampleWords word)).shape = [1025] := by
  rw [int64Tensor_shape, sampleWords_length]

theorem getElem_view_sampleWords {word : Word} (h : wordOfBytes (bytesOfWord word) = word)
    (hlength : 1 < (toInt64View (int64Tensor (sampleWords word))).length) :
    (toInt64View (int64Tensor (sampleWords word)))[1] = word := by
  have hget : (toInt64View (int64Tensor (sampleWords word)))[1]? = some word := by
    rw [view_sampleWords h, sampleWords,
      List.getElem?_set_self (by rw [List.length_replicate]; decide)]
  exact (List.getElem?_eq_some_iff.mp hget).2

/-- Two of these tensors have one signature when the words agree in all bits but the highest. -/
theorem signature_sampleWords {x y : Word} (hx : wordOfBytes (bytesOfWord x) = x)
    (hy : wordOfBytes (bytesOfWord y) = y) :
    computeTensorSignature (int64Tensor (sampleWords x)) =
        computeTensorSignature (int64Tensor (sampleWords y)) ↔ LowEq 63 x y := by
  have hset := signatureOfWords_set ⟨"torch.int64", 8⟩ [1025] (List.replicate 1025 0#64) 1
    (by rw [List.length_replicate]; decide) x y
  rw [List.length_replicate, lostBitsAt_sample] at hset
  rw [computeTensorSignature_eq, computeTensorSignature_eq, view_sampleWords hx,
    view_sampleWords hy, shape_sampleWords, shape_sampleWords, int64Tensor_dtype,
    int64Tensor_dtype]
  exact hset

theorem one_lt_view {word : Word} (h : wordOfBytes (bytesOfWord word) = word) :
    1 < (toInt64View (int64Tensor (sampleWords word))).length := by
  rw [view_sampleWords h, sampleWords_length]
  decide

theorem view_sampleWords_set {x y : Word} (hx : wordOfBytes (bytesOfWord x) = x)
    (hy : wordOfBytes (bytesOfWord y) = y) :
    toInt64View (int64Tensor (sampleWords x)) =
      (toInt64View (int64Tensor (sampleWords y))).set 1 x := by
  rw [view_sampleWords hx, view_sampleWords hy, sampleWords, sampleWords, List.set_set]

theorem shape_eq_sampleWords (x y : Word) :
    (int64Tensor (sampleWords x)).shape = (int64Tensor (sampleWords y)).shape := by
  rw [shape_sampleWords, shape_sampleWords]

theorem dtype_eq_int64Tensor (words words' : List Word) :
    (int64Tensor words).dtype = (int64Tensor words').dtype := by
  rw [int64Tensor_dtype, int64Tensor_dtype]

/-- **A corrupted word that no signature shows**: its highest bit is lost. -/
theorem signature_misses_corruption :
    ¬ ∀ (tensor corrupted : Tensor), corrupted.dtype = tensor.dtype →
      corrupted.shape = tensor.shape → ∀ (index : Nat) (h : index < (toInt64View tensor).length)
        (word : Word), toInt64View corrupted = (toInt64View tensor).set index word →
        word ≠ (toInt64View tensor)[index] →
        computeTensorSignature corrupted ≠ computeTensorSignature tensor := by
  intro h
  have hmisses : ∀ x y : Word, wordOfBytes (bytesOfWord x) = x →
      wordOfBytes (bytesOfWord y) = y → x ≠ y → ¬ LowEq 63 x y := by
    intro x y hx hy hne hlow
    refine h (int64Tensor (sampleWords y)) (int64Tensor (sampleWords x))
      (dtype_eq_int64Tensor _ _) (shape_eq_sampleWords x y) 1 (one_lt_view hy) x
      (view_sampleWords_set hx hy) ?_ ((signature_sampleWords hx hy).mpr hlow)
    rw [getElem_view_sampleWords hy]
    exact hne
  exact hmisses 9223372036854775808#64 0 (by decide) (by decide) (by decide) (by decide)

/-- The lowest bit is kept. -/
theorem signature_changes_iff_sample :
    computeTensorSignature (int64Tensor (sampleWords 1)) ≠
      computeTensorSignature (int64Tensor (sampleWords 0)) := by
  have hshows : ∀ x y : Word, wordOfBytes (bytesOfWord x) = x →
      wordOfBytes (bytesOfWord y) = y → ¬ LowEq 63 x y →
      computeTensorSignature (int64Tensor (sampleWords x)) ≠
        computeTensorSignature (int64Tensor (sampleWords y)) := by
    intro x y hx hy hlow
    refine (signature_changes_iff (int64Tensor (sampleWords y)) (int64Tensor (sampleWords x))
      (dtype_eq_int64Tensor _ _) (shape_eq_sampleWords x y) 1 (one_lt_view hy) x
      (view_sampleWords_set hx hy)).mpr ?_
    rw [getElem_view_sampleWords hy, view_sampleWords hy, sampleWords_length, lostBitsAt_sample]
    exact hlow
  exact hshows 1 0 (by decide) (by decide) (by decide)

end LmResiliency.Detection
