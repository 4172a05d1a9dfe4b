/-
# ReplicationExchange — the receiver has what the sender sent

What the two loops do is told by one list of messages: the sender says them, and
the receiver, whatever its buffers held, takes them and ends with the step, the
metadata and the tensors they were made of.

The main result is `exchange_exact`; it names every message and bounds its size.
The channel delivers in order, tag by tag, and loses nothing: a receive that
times out is not in the model.
-/
import LmResiliency.Checkpointing.Replication
import LmResiliency.Lib.Outcome

namespace LmResiliency.Checkpointing.Replication

open LmResiliency.Channel

variable {T : Torch}

/-- A dtype is shown as the attribute of the library that it is. -/
structure Torch.Documented (T : Torch) : Prop where
  dtype_name : ∀ d, ∃ name, T.str d = "torch." ++ name ∧ T.attr name = some d

/-! ## Numbers -/

theorem length_littleEndian (k n : Nat) : (littleEndian k n).length = k := by
  induction k generalizing n with
  | zero => rfl
  | succ k ih => rw [littleEndian, List.length_cons, ih]

theorem ofLittleEndian_littleEndian (k n : Nat) :
    ofLittleEndian (littleEndian k n) = n % 256 ^ k := by
  induction k generalizing n with
  | zero => rw [littleEndian, ofLittleEndian, Nat.pow_zero, Nat.mod_one]
  | succ k ih =>
      rw [littleEndian, ofLittleEndian, ih, UInt8.toNat_ofNat',
        show 256 ^ (k + 1) = 256 * 256 ^ k from Nat.pow_succ']
      exact Nat.mod_mul.symm

/-- A number as it is sent. -/
@[irreducible] def number (n : Int) : Bytes := littleEndian 8 (n % 2 ^ 64).toNat

theorem item_number {n : Int} (h : InInt64 n) : item (number n) = n := by
  obtain ⟨hlow, hhigh⟩ := h
  have hvalue : (ofLittleEndian (number n) : Int) = n % 2 ^ 64 := by
    rw [number, ofLittleEndian_littleEndian]
    omega
  unfold item
  split <;> omega

theorem says_sendNumber {n : Int} (h : InInt64 n) :
    Says (sendNumber n) [number n] (.ok ()) := by
  rw [sendNumber, int64Tensor, if_pos h, number]
  exact .message (.ret ())

theorem hears_recvNumber {n : Int} (h : InInt64 n) : Hears recvNumber [number n] (.ok n) := by
  refine Hears.message (m := number n) (by rw [number]; exact length_littleEndian 8 _) ?_
  change Hears (.ret (item (number n))) [] (.ok n)
  rw [item_number h]
  exact .ret n

/-! ## Blobs -/

/-- A blob as it is sent. -/
def blobMessages (blob : Bytes) : List Bytes :=
  number blob.length :: if blob = [] then [] else [blob]

theorem says_sendBytes {blob : Bytes} (h : InInt64 blob.length) :
    Says (sendBytes blob) (blobMessages blob) (.ok ()) := by
  rw [sendBytes]
  change Says _ ([number blob.length] ++ if blob = [] then [] else [blob]) _
  refine (says_sendNumber h).bind ?_
  by_cases hblob : blob = []
  · rw [if_pos hblob, if_neg (not_not.mpr hblob)]
    exact .ret ()
  · rw [if_neg hblob, if_pos hblob]
    exact .message (.ret ())

theorem hears_recvBytes {blob : Bytes} (h : InInt64 blob.length) :
    Hears recvBytes (blobMessages blob) (.ok blob) := by
  rw [recvBytes]
  change Hears _ ([number blob.length] ++ if blob = [] then [] else [blob]) _
  refine (hears_recvNumber h).bind ?_
  by_cases hblob : blob = []
  · subst hblob
    exact .ret []
  · have hlength : (blob.length : Int) ≠ 0 :=
      Int.natCast_ne_zero.mpr (List.length_eq_zero_iff.not.mpr hblob)
    rw [if_neg hblob, if_neg hlength, if_neg (Int.not_lt.mpr (Int.natCast_nonneg _))]
    exact .message (Int.toNat_natCast _).symm (.ret blob)

/-! ## The layout -/

theorem mapM_readExtent : ∀ shape : List Int, (shape.map Json.int).mapM readExtent = some shape
  | [] => rfl
  | n :: shape => by
      rw [List.map_cons, List.mapM_cons, mapM_readExtent shape]
      rfl

theorem readSpec_toJson (spec : LayoutSpec) : readSpec spec.toJson = some spec := by
  change (do return ⟨← (spec.shape.map Json.int).mapM readExtent, spec.dtype⟩) = some spec
  rw [mapM_readExtent]
  rfl

theorem mapM_readSpec : ∀ layout : List LayoutSpec,
    (layout.map LayoutSpec.toJson).mapM readSpec = some layout
  | [] => rfl
  | spec :: layout => by
      rw [List.map_cons, List.mapM_cons, readSpec_toJson, mapM_readSpec layout]
      rfl

theorem plain_toJson (spec : LayoutSpec) : Json.Plain spec.toJson :=
  ⟨show ["shape", "dtype"].Nodup by decide,
    Json.plainItems_map (f := Json.int) (fun _ => trivial) spec.shape, trivial, trivial⟩

/-- A layout is read as it was written. -/
theorem readLayout_writeLayout (layout : List LayoutSpec) :
    readLayout (writeLayout layout) = .ok layout := by
  have hplain : Json.Plain (.arr (layout.map LayoutSpec.toJson)) :=
    Json.plainItems_map plain_toJson layout
  have hprintable : ∀ c ∈ (String.ofList (Json.write
      (.arr (layout.map LayoutSpec.toJson)))).toList, Json.Printable c := by
    rw [String.toList_ofList]
    exact Json.printable_write hplain
  rw [readLayout, writeLayout, Array.toArray_toList, Json.decodeBytes_toUTF8 hprintable,
    Option.bind_some, Json.loadsLast, Json.loadsWith_write Json.keeps_keepLast hplain.readable]
  dsimp only
  rw [mapM_readSpec]

theorem writeLayout_ne_nil (layout : List LayoutSpec) : writeLayout layout ≠ [] := by
  intro hnil
  have hread := readLayout_writeLayout layout
  rw [hnil, show readLayout [] = .error .jsonDecodeError by decide] at hread
  cases hread

theorem attr_dtypeName (hT : T.Documented) (d : T.Dtype) : T.attr (dtypeName d) = some d := by
  obtain ⟨name, hstr, hattr⟩ := hT.dtype_name d
  have hlist : (T.str d).toList = "torch.".toList ++ name.toList := by
    rw [hstr, String.toList_append]
  rw [dtypeName, hlist, if_pos (List.isPrefixOf_iff_prefix.mpr (List.prefix_append _ _)),
    show (6 : Nat) = "torch.".toList.length from rfl, List.drop_left, String.ofList_toList, hattr]

/-- A buffer that a tensor can be received into. -/
structure Ready (b : Buffer T) (t : Tensor T) : Prop where
  dtype : b.dtype = t.dtype
  shape : b.shape = t.shape
  contiguous : b.contiguous = true

theorem contiguous_of_leftOver {buffers : List (Buffer T)} (h : LeftOver buffers) :
    ∀ b ∈ buffers, b.contiguous = true := by
  induction h with
  | allocated memory entries =>
      intro b hb
      obtain ⟨entry, -, rfl⟩ := List.mem_map.mp hb
      rfl
  | @prepared memory buffers buffers' layout _ hprepare ih =>
      rw [prepareReceiveBuffers] at hprepare
      split at hprepare
      · cases hprepare
        exact ih
      · intro b hb
        obtain ⟨spec, -, hspec⟩ := Outcome.mem_of_forall₂ (Outcome.mapM_ok_iff.mp hprepare) |>.2 b hb
        rw [allocateSpec] at hspec
        split at hspec
        · cases hspec
        · split at hspec <;> cases hspec
          rfl
  | received i b data _ hb ih =>
      intro b' hb'
      rcases List.mem_or_eq_of_mem_set hb' with hmem | rfl
      · exact ih b' hmem
      · exact ih b (List.mem_of_getElem? hb)

/-- What the layouts of a buffer and a tensor say. -/
theorem ready_of_layout (hT : T.Documented) {b : Buffer T} {t : Tensor T}
    (h : (⟨b.shape.map Int.ofNat, dtypeName b.dtype⟩ : LayoutSpec) =
      ⟨t.shape.map Int.ofNat, dtypeName t.dtype⟩) (hb : b.contiguous = true) : Ready b t := by
  rw [LayoutSpec.mk.injEq] at h
  refine ⟨?_, List.map_injective_iff.mpr (fun _ _ => Int.ofNat.inj) h.1, hb⟩
  have hattr := attr_dtypeName hT b.dtype
  rw [h.2, attr_dtypeName hT t.dtype] at hattr
  exact (Option.some.inj hattr).symm

theorem allocateSpec_layout (hT : T.Documented) (memory : Nat → UInt8) (t : Tensor T) :
    allocateSpec memory ⟨t.shape.map Int.ofNat, dtypeName t.dtype⟩ =
      .ok (empty memory t.shape t.dtype) := by
  have hextents : ¬∃ extent ∈ t.shape.map Int.ofNat, extent < 0 := by
    rintro ⟨_, hmem, hneg⟩
    obtain ⟨n, -, rfl⟩ := List.mem_map.mp hmem
    exact absurd hneg (Int.not_lt.mpr (Int.natCast_nonneg n))
  have hshape : (t.shape.map Int.ofNat).map Int.toNat = t.shape := by
    rw [List.map_map]
    exact (List.map_congr_left fun n _ => Int.toNat_natCast n).trans (List.map_id' _)
  rw [allocateSpec, attr_dtypeName hT]
  dsimp only
  rw [if_neg hextents, hshape]

/-- Prepared buffers are ready, whatever they were before. -/
theorem prepare_ready (hT : T.Documented) (memory : Nat → UInt8) {buffers : List (Buffer T)}
    (hbuffers : ∀ b ∈ buffers, b.contiguous = true) (tensors : List (Tensor T)) :
    ∃ buffers', prepareReceiveBuffers memory buffers (tensorLayout tensors) = .ok buffers' ∧
      List.Forall₂ Ready buffers' tensors := by
  by_cases hsame : tensorLayout (buffers.map Buffer.toTensor) = tensorLayout tensors
  · refine ⟨buffers, if_pos hsame, ?_⟩
    rw [tensorLayout, tensorLayout, ← List.forall₂_eq_eq_eq, List.forall₂_map_left_iff,
      List.forall₂_map_left_iff, List.forall₂_map_right_iff] at hsame
    exact ((List.forall₂_and_left _ _).mpr ⟨hbuffers, hsame⟩).imp
      fun b t h => ready_of_layout hT h.2 h.1
  · refine ⟨tensors.map fun t => empty memory t.shape t.dtype, ?_, ?_⟩
    · rw [prepareReceiveBuffers, if_neg hsame, Outcome.mapM_ok_iff, tensorLayout,
        List.forall₂_map_left_iff, List.forall₂_map_right_iff]
      exact List.forall₂_same.mpr fun t _ => allocateSpec_layout hT memory t
    · rw [List.forall₂_map_left_iff]
      exact List.forall₂_same.mpr fun t _ => ⟨rfl, rfl, rfl⟩

/-! ## The chunks of a tensor -/

/-- The messages of a tensor from an offset on. -/
def chunks (chunkSize : Nat) (t : Tensor T) (offset : Nat) : List Bytes :=
  if offset < t.numel then
    let stop := chunkEnd chunkSize (T.elementSize t.dtype) t.numel offset
    slice t offset stop :: chunks chunkSize t stop
  else []
termination_by t.numel - offset
decreasing_by exact chunkEnd_decreases ‹_›

theorem length_slice {t : Tensor T} {offset stop : Nat} (hstop : stop ≤ t.numel) :
    (slice t offset stop).length = (stop - offset) * T.elementSize t.dtype := by
  have hle : stop * T.elementSize t.dtype ≤ t.data.val.length := by
    rw [t.data.property]
    exact Nat.mul_le_mul_right _ hstop
  rw [slice, List.length_take, List.length_drop, Nat.sub_mul]
  omega

theorem chunkEnd_le (chunkSize elementSize numel offset : Nat) :
    chunkEnd chunkSize elementSize numel offset ≤ numel := Nat.min_le_right _ _

/-- **A message is at most a chunk**, or one element. -/
theorem length_le_of_mem_chunks {chunkSize : Nat} {t : Tensor T} {offset : Nat} {m : Bytes}
    (hm : m ∈ chunks chunkSize t offset) : m.length ≤ max chunkSize (T.elementSize t.dtype) := by
  induction offset using chunks.induct chunkSize t with
  | case1 offset hlt stop ih =>
      rw [chunks, if_pos hlt] at hm
      rcases List.mem_cons.mp hm with rfl | hm
      · rw [length_slice (chunkEnd_le _ _ _ _)]
        calc (stop - offset) * T.elementSize t.dtype
            ≤ chunkElems chunkSize (T.elementSize t.dtype) * T.elementSize t.dtype := by
              refine Nat.mul_le_mul_right _ ?_
              change chunkEnd _ _ _ _ - offset ≤ _
              rw [chunkEnd]
              omega
          _ ≤ max chunkSize (T.elementSize t.dtype) := by
              rw [chunkElems]
              rcases Nat.le_total 1 (chunkSize / T.elementSize t.dtype) with hfit | hfit
              · rw [Nat.max_eq_right hfit]
                exact (Nat.div_mul_le_self _ _).trans (le_max_left _ _)
              · rw [Nat.max_eq_left hfit, Nat.one_mul]
                exact le_max_right _ _
      · exact ih hm
  | case2 offset hge =>
      rw [chunks, if_neg hge] at hm
      cases hm

/-- **The chunks are the tensor**, from the offset on. -/
theorem flatten_chunks (chunkSize : Nat) (t : Tensor T) (offset : Nat) :
    (chunks chunkSize t offset).flatten = t.data.val.drop (offset * T.elementSize t.dtype) := by
  induction offset using chunks.induct chunkSize t with
  | case1 offset hlt stop ih =>
      have hle : offset ≤ stop := by
        change offset ≤ chunkEnd _ _ _ _
        rw [chunkEnd]
        omega
      have hsum : (stop - offset) * T.elementSize t.dtype + offset * T.elementSize t.dtype =
          stop * T.elementSize t.dtype := by
        rw [← Nat.add_mul, Nat.sub_add_cancel hle]
      rw [chunks, if_pos hlt, List.flatten_cons, ih, slice, ← hsum, ← List.drop_drop,
        List.drop_drop, Nat.add_comm, ← List.drop_drop]
      exact List.take_append_drop _ _
  | case2 offset hge =>
      rw [chunks, if_neg hge, List.flatten_nil, List.drop_of_length_le]
      rw [t.data.property]
      exact Nat.mul_le_mul_right _ (Nat.not_lt.mp hge)

/-- How many chunks there are, the last perhaps shorter. -/
theorem length_chunks (chunkSize : Nat) (t : Tensor T) (offset : Nat) :
    (chunks chunkSize t offset).length =
      (t.numel - offset + chunkElems chunkSize (T.elementSize t.dtype) - 1) /
        chunkElems chunkSize (T.elementSize t.dtype) := by
  have hpos : 0 < chunkElems chunkSize (T.elementSize t.dtype) := by
    rw [chunkElems]
    omega
  induction offset using chunks.induct chunkSize t with
  | case1 offset hlt stop ih =>
      rw [chunks, if_pos hlt, List.length_cons, ih]
      have hstop : stop = min (offset + chunkElems chunkSize (T.elementSize t.dtype)) t.numel :=
        rfl
      generalize chunkElems chunkSize (T.elementSize t.dtype) = k at hpos hstop ⊢
      rcases Nat.le_total (offset + k) t.numel with hmore | hlast
      · rw [hstop, Nat.min_eq_left hmore, ← Nat.add_div_right _ hpos]
        congr 1
        omega
      · rw [hstop, Nat.min_eq_right hlast, Nat.sub_self, Nat.zero_add,
          Nat.div_eq_of_lt (Nat.sub_lt hpos Nat.one_pos)]
        refine (Nat.div_eq_of_lt_le ?_ ?_).symm
        · omega
        · omega
  | case2 offset hge =>
      rw [chunks, if_neg hge, Nat.sub_eq_zero_of_le (Nat.not_lt.mp hge), Nat.zero_add,
        Nat.div_eq_of_lt (Nat.sub_lt hpos Nat.one_pos)]
      rfl

theorem says_sendChunks (chunkSize : Nat) (t : Tensor T) (offset : Nat) :
    Says (sendChunks chunkSize t offset) (chunks chunkSize t offset) (.ok ()) := by
  induction offset using chunks.induct chunkSize t with
  | case1 offset hlt stop ih =>
      rw [sendChunks, chunks, if_pos hlt, if_pos hlt]
      exact .message ih
  | case2 offset hge =>
      rw [sendChunks, chunks, if_neg hge, if_neg hge]
      exact .ret ()

/-- The receiver of a tensor, once it has what stands before the offset. -/
theorem hears_recvChunks {chunkSize : Nat} {t : Tensor T} {offset : Nat}
    {flat : Block (t.shape.prod * T.elementSize t.dtype)}
    (h : flat.val.take (offset * T.elementSize t.dtype) =
      t.data.val.take (offset * T.elementSize t.dtype)) :
    Hears (recvChunks chunkSize (T.elementSize t.dtype) t.shape.prod flat offset)
      (chunks chunkSize t offset) (.ok t.data) := by
  induction offset using chunks.induct chunkSize t generalizing flat with
  | case1 offset hlt stop =>
      rename_i ih
      have hle : offset ≤ stop := by
        change offset ≤ chunkEnd _ _ _ _
        rw [chunkEnd]
        omega
      have hstop : stop ≤ t.numel := chunkEnd_le _ _ _ _
      have hlength : (slice t offset stop).length = (stop - offset) * T.elementSize t.dtype :=
        length_slice hstop
      rw [recvChunks, chunks, dif_pos (show offset < t.shape.prod from hlt), if_pos hlt]
      refine .message hlength (ih ?_)
      -- what was there and the chunk after it
      have hsum : offset * T.elementSize t.dtype + (stop - offset) * T.elementSize t.dtype =
          stop * T.elementSize t.dtype := by
        rw [← Nat.add_mul, Nat.add_sub_cancel' hle]
      have hjoined : flat.val.take (offset * T.elementSize t.dtype) ++ slice t offset stop =
          t.data.val.take (stop * T.elementSize t.dtype) := by
        rw [h, slice, ← List.take_add, hsum]
      have hjoinedLength : (flat.val.take (offset * T.elementSize t.dtype) ++
          slice t offset stop).length = stop * T.elementSize t.dtype := by
        rw [hjoined, List.length_take, t.data.property]
        exact Nat.min_eq_left (Nat.mul_le_mul_right _ hstop)
      exact (List.take_left' hjoinedLength).trans hjoined
  | case2 offset hge =>
      rw [recvChunks, chunks, dif_neg (show ¬offset < t.shape.prod from hge), if_neg hge]
      have hall : t.shape.prod * T.elementSize t.dtype ≤ offset * T.elementSize t.dtype :=
        Nat.mul_le_mul_right _ (Nat.not_lt.mp hge)
      rw [List.take_of_length_le (flat.property.trans_le hall),
        List.take_of_length_le (t.data.property.trans_le hall)] at h
      rw [Subtype.ext h]
      exact .ret _

/-- A tensor in a buffer of its own. -/
def Tensor.received (t : Tensor T) : Buffer T := { t with contiguous := true }

theorem hears_recvBuffer {chunkSize : Nat} {b : Buffer T} {t : Tensor T} (h : Ready b t) :
    Hears (recvBuffer chunkSize b) (chunks chunkSize t 0) (.ok t.received) := by
  obtain ⟨⟨dtype, shape, data⟩, contiguous⟩ := b
  obtain ⟨dtype', shape', data'⟩ := t
  obtain ⟨rfl, rfl, rfl⟩ := h
  rw [← List.append_nil (chunks chunkSize _ 0)]
  refine Hears.bind (hears_recvChunks (t := ⟨dtype, shape, data'⟩) ?_) (.ret _)
  rw [Nat.zero_mul, List.take_zero, List.take_zero]

/-! ## A generation -/

/-- The messages of a header. -/
def headerMessages (tensors : List (Tensor T)) (step : Int) (metaBlob : Bytes) : List Bytes :=
  [number step] ++ (blobMessages metaBlob ++ blobMessages (writeLayout (tensorLayout tensors)))

theorem length_headerMessages (tensors : List (Tensor T)) (step : Int) (metaBlob : Bytes) :
    (headerMessages tensors step metaBlob).length = if metaBlob = [] then 4 else 5 := by
  rw [headerMessages, blobMessages, blobMessages, if_neg (writeLayout_ne_nil _)]
  split <;> rfl

/-- The messages of a generation: those of the header and, tensor by tensor, the chunks. -/
def shardMessages (chunkSize : Nat) (tensors : List (Tensor T)) (step : Int)
    (metaBlob : Bytes) : List Bytes :=
  headerMessages tensors step metaBlob ++ tensors.flatMap (chunks chunkSize · 0)

theorem length_shardMessages (chunkSize : Nat) (tensors : List (Tensor T)) (step : Int)
    (metaBlob : Bytes) : (shardMessages chunkSize tensors step metaBlob).length =
      (if metaBlob = [] then 4 else 5) + (tensors.map fun t =>
        (t.numel + max 1 (chunkSize / T.elementSize t.dtype) - 1) /
          max 1 (chunkSize / T.elementSize t.dtype)).sum := by
  rw [shardMessages, List.length_append, length_headerMessages, List.length_flatMap]
  simp only [length_chunks, Nat.sub_zero, chunkElems]

section Exchange

variable {tensors : List (Tensor T)} {step : Int} {metaBlob : Bytes} (chunkSize : Nat)
  (hstep : InInt64 step) (hmeta : InInt64 metaBlob.length)
  (hlayout : InInt64 (writeLayout (tensorLayout tensors)).length)

include hstep hmeta hlayout

theorem says_sendShard : Says (sendShard chunkSize tensors step metaBlob)
    (shardMessages chunkSize tensors step metaBlob) (.ok ()) := by
  rw [sendShard, sendHeader, shardMessages, headerMessages]
  refine Says.bind (a := ()) ?_ (.forM fun t _ => says_sendChunks chunkSize t 0)
  exact (says_sendNumber hstep).bind ((says_sendBytes hmeta).bind (says_sendBytes hlayout))

theorem hears_recvShard (hT : T.Documented) {buffers : List (Buffer T)}
    (hbuffers : LeftOver buffers) (memory : Nat → UInt8) :
    Hears (recvShard chunkSize memory buffers)
      (shardMessages chunkSize tensors step metaBlob)
      (.ok (step, metaBlob, tensors.map Tensor.received)) := by
  obtain ⟨buffers', hprepare, hready⟩ :=
    prepare_ready hT memory (contiguous_of_leftOver hbuffers) tensors
  rw [recvShard, recvHeader, shardMessages, headerMessages]
  refine Hears.bind (b := (step, metaBlob, buffers')) ?_ ?_
  · refine (hears_recvNumber hstep).bind ((hears_recvBytes hmeta).bind ?_)
    rw [← List.append_nil (blobMessages (writeLayout _))]
    refine (hears_recvBytes hlayout).bind ?_
    rw [readLayout_writeLayout]
    change Hears (Receiver.lift (prepareReceiveBuffers memory buffers _) >>= _) [] _
    rw [hprepare]
    exact .ret _
  · rw [← List.append_nil (tensors.flatMap _)]
    exact (Hears.mapM (hready.imp fun b t h => hears_recvBuffer h)).bind (.ret _)

end Exchange

/-- **A generation is delivered exactly.**  The sender's messages are a header and,
for each tensor, its bytes in messages of at most a chunk or one element.  Neither
side sends or receives more than these, and a run of the two that can go no further
has sent and received them all, and has left the receiver with the step, the metadata
and the tensors of the sender. -/
theorem exchange_exact (hT : T.Documented) {buffers : List (Buffer T)}
    (hbuffers : LeftOver buffers) {tensors : List (Tensor T)} {step : Int} {metaBlob : Bytes}
    (hstep : InInt64 step) (hmeta : InInt64 metaBlob.length)
    (hlayout : InInt64 (writeLayout (tensorLayout tensors)).length) (chunkSize : Nat)
    (memory : Nat → UInt8) (spare : Nat) :
    Says (sendShard chunkSize tensors step metaBlob)
      (shardMessages chunkSize tensors step metaBlob) (.ok ()) ∧
    (∀ t ∈ tensors, (chunks chunkSize t 0).flatten = t.data.val ∧
      ∀ m ∈ chunks chunkSize t 0, m.length ≤ max chunkSize (T.elementSize t.dtype)) ∧
    (shardMessages chunkSize tensors step metaBlob).length =
      (if metaBlob = [] then 4 else 5) + (tensors.map fun t =>
        (t.numel + max 1 (chunkSize / T.elementSize t.dtype) - 1) /
          max 1 (chunkSize / T.elementSize t.dtype)).sum ∧
    ∀ s, Run spare (.start (sendShard chunkSize tensors step metaBlob)
        (recvShard chunkSize memory buffers)) s →
      s.sent ≤ (shardMessages chunkSize tensors step metaBlob).length ∧
      s.received ≤ (shardMessages chunkSize tensors step metaBlob).length ∧
      ((∃ s', Step spare s s') ∨ ∃ buffers', buffers'.map Buffer.toTensor = tensors ∧
        s = ⟨.ret (), [], .ret (step, metaBlob, buffers'),
          (shardMessages chunkSize tensors step metaBlob).length,
          (shardMessages chunkSize tensors step metaBlob).length⟩) := by
  have hspoken := says_sendShard chunkSize hstep hmeta hlayout
  have hhears := hears_recvShard chunkSize hstep hmeta hlayout hT hbuffers memory
  refine ⟨hspoken, fun t _ => ⟨?_, fun m hm => length_le_of_mem_chunks hm⟩,
    length_shardMessages chunkSize tensors step metaBlob, fun s hrun => ?_⟩
  · rw [flatten_chunks, Nat.zero_mul, List.drop_zero]
  · obtain ⟨hsent, hreceived, hnext⟩ := run_ends hspoken hhears hrun
    refine ⟨hsent, hreceived, hnext.imp_right fun hs => ⟨_, ?_, hs⟩⟩
    rw [List.map_map]
    exact List.map_id _

/-! ## A shard of two tensors -/

inductive SampleDtype where
  | uint8
  | float32

def sampleTorch : Torch where
  Dtype := SampleDtype
  elementSize
    | .uint8 => 1
    | .float32 => 4
  elementSize_pos d := by cases d <;> decide
  str
    | .uint8 => "torch.uint8"
    | .float32 => "torch.float32"
  attr name :=
    if name = "uint8" then some .uint8 else if name = "float32" then some .float32 else none

theorem sampleTorch_documented : sampleTorch.Documented where
  dtype_name d := by
    cases d with
    | uint8 => exact ⟨"uint8", rfl, rfl⟩
    | float32 => exact ⟨"float32", rfl, rfl⟩

/-- Two floats and an empty tensor. -/
def sampleShard : List (Tensor sampleTorch) :=
  [⟨.float32, [2], ⟨[0, 0, 128, 63, 0, 0, 0, 64], rfl⟩⟩, ⟨.uint8, [0, 3], ⟨[], rfl⟩⟩]

/-- They are received over a buffer of three bytes, in chunks of one float: seven
messages. -/
theorem exchange_exact_sample :
    (shardMessages 5 sampleShard 7 [1, 2]).length = 7 ∧
    ∀ s, Run 0 (.start (sendShard 5 sampleShard 7 [1, 2])
        (recvShard 5 (fun _ => 0) [empty (T := sampleTorch) (fun _ => 0) [3] .uint8])) s →
      s.sent ≤ 7 ∧ s.received ≤ 7 ∧
      ((∃ s', Step 0 s s') ∨ ∃ buffers', buffers'.map Buffer.toTensor = sampleShard ∧
        s = ⟨.ret (), [], .ret (7, [1, 2], buffers'), 7, 7⟩) := by
  obtain ⟨-, -, hcount, hruns⟩ := exchange_exact sampleTorch_documented
    (.allocated (T := sampleTorch) (fun _ => 0) [([3], SampleDtype.uint8)])
    (show InInt64 7 by decide) (show InInt64 ([1, 2] : Bytes).length by decide)
    (show InInt64 (writeLayout (tensorLayout sampleShard)).length by decide +kernel)
    5 (fun _ => 0) 0
  have hseven : (shardMessages 5 sampleShard 7 [1, 2]).length = 7 := hcount.trans (by decide)
  rw [hseven] at hruns
  exact ⟨hseven, hruns⟩

end LmResiliency.Checkpointing.Replication
