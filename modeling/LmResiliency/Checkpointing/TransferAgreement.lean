/-
# TransferAgreement — what the two ends of a transfer know of each other

The destination acknowledges checksums only after it has compared them, and
copies only after that.  The source returns on an acknowledgement that reads 1.
What ties the two verdicts is that the manifest and the acknowledgement arrive
as they were sent.

The main result is `transfer_agreement`.  The checksum is a parameter: that two
payloads with one checksum are equal is not claimed.
-/
import LmResiliency.Checkpointing.ReplicationExchange
import LmResiliency.Checkpointing.Transfer

namespace LmResiliency.Checkpointing.Transfer

open Network Outcome Prog Replication

variable {T : Torch}

/-- The history of an endpoint. -/
abbrev History : Type := List (Event transferIface)

/-- The comparison was made, with these checksums on both sides. -/
def Compared (h : History) (checksums : List Int) : Prop :=
  (⟨.act (.verify checksums checksums), ()⟩ : Event transferIface) ∈ h

/-- A copy into a buffer of the caller was made, or tried. -/
def Copied (h : History) : Prop :=
  ∃ index r, (⟨.act (.copy index), r⟩ : Event transferIface) ∈ h

theorem inbox_received (channel : Nat) {size : Nat} (m : Block size) (h : History) :
    inbox channel (h ++ [(⟨.recv channel size, .ok m⟩ : Event transferIface)]) =
      inbox channel h ++ [m.val] := inbox_recv_self channel size m h

theorem Compared.append {h : History} {checksums : List Int} (hc : Compared h checksums)
    (h' : History) : Compared (h ++ h') checksums := List.mem_append_left h' hc

namespace TorchDistTransfer

variable (self : TorchDistTransfer) (lib : Library)

/-! ## The messages one by one -/

section Messages

variable {Q : History → Prop} {h : History}

theorem along_send {channel : Nat} {message : Bytes} {operation : String}
    {R : Unit → History → Prop} {E : TransferError → History → Prop} (hq : Q h)
    (hnext : ∀ r, Q (h ++ [⟨.send channel message, r⟩]))
    (hok : ∀ r, R () (h ++ [⟨.send channel message, r⟩]))
    (hfail : ∀ r, E (.timeout operation) (h ++ [⟨.send channel message, r⟩])) :
    (send channel message operation).Along Q R E h := by
  refine .call hq fun r => ?_
  cases r with
  | ok _ => exact .ret (hnext _) (hok _)
  | error _ => exact .raise (hnext _) (hfail _)

theorem along_recv {channel size : Nat} {operation : String} {R : Block size → History → Prop}
    {E : TransferError → History → Prop} (hq : Q h)
    (hnext : ∀ r, Q (h ++ [⟨.recv channel size, r⟩]))
    (hok : ∀ m, R m (h ++ [⟨.recv channel size, .ok m⟩]))
    (hfail : ∀ r, E (.timeout operation) (h ++ [⟨.recv channel size, r⟩])) :
    (recv channel size operation).Along Q R E h := by
  refine .call hq fun r => ?_
  cases r with
  | ok m => exact .ret (hnext _) (hok m)
  | error _ => exact .raise (hnext _) (hfail _)

theorem along_lift {α : Type} {x : Except TransferError α} {E : TransferError → History → Prop}
    (hq : Q h) (hfail : ∀ e, E e h) :
    (TransferM.lift x).Along Q (fun a h' => x = .ok a ∧ h' = h) E h := by
  cases x with
  | ok a => exact .ret hq ⟨rfl, rfl⟩
  | error e => exact .raise hq (hfail e)

/-- What sending on a channel keeps is kept by a tensor's chunks. -/
theorem along_sendChunks {channel : Nat} (hsend : ∀ h message r, Q h →
    Q (h ++ [⟨.send channel message, r⟩])) (t : Tensor T) (offset : Nat) (operation : String)
    (hq : Q h) :
    (self.sendChunks channel t offset operation).Along Q (fun _ _ => True) (fun _ _ => True)
      h := by
  induction offset using sendChunks.induct self t generalizing h with
  | case1 offset hlt stop =>
      rename_i ih
      rw [sendChunks, if_pos hlt]
      refine Along.bind (R := fun _ _ => True) (along_send hq (fun r => hsend h _ r hq)
        (fun _ => trivial) fun _ => trivial) fun _ h' hq' _ => ih hq'
  | case2 offset hge =>
      rw [sendChunks, if_neg hge]
      exact .ret hq trivial

theorem along_forM {γ : Type} {f : γ → TransferM Unit}
    (hf : ∀ x h, Q h → (f x).Along Q (fun _ _ => True) (fun _ _ => True) h) (xs : List γ)
    (hq : Q h) : (xs.forM f).Along Q (fun _ _ => True) (fun _ _ => True) h := by
  induction xs generalizing h with
  | nil => exact .ret hq trivial
  | cons x xs ih =>
      change (f x >>= fun _ => xs.forM f).Along _ _ _ h
      exact (hf x h hq).bind fun _ h' hq' _ => ih hq'

/-- The chunks of a buffer are what is received, and keep what receiving keeps. -/
theorem along_recvChunks {channel elementSize numel : Nat} (hrecv : ∀ h size r, Q h →
    Q (h ++ [⟨.recv channel size, r⟩])) (flat : Block (numel * elementSize)) (offset : Nat)
    (operation : String) (hq : Q h) :
    (self.recvChunks channel elementSize numel flat offset operation).Along Q
      (fun flat' h' =>
        flat'.val.take (offset * elementSize) = flat.val.take (offset * elementSize) ∧
        (inbox channel h').flatten =
          (inbox channel h).flatten ++ flat'.val.drop (offset * elementSize))
      (fun _ h => Q h) h := by
  induction flat, offset using recvChunks.induct self elementSize numel generalizing h with
  | case1 flat offset hlt stop =>
      rename_i ih
      rw [recvChunks, dif_pos hlt]
      refine Along.bind (R := fun m h' => h' = h ++ [⟨.recv channel _, .ok m⟩])
        (along_recv hq (fun r => hrecv h _ r hq) (fun _ => rfl) fun r => hrecv h _ r hq)
        fun chunk h' hq' hh' => ?_
      subst hh'
      refine (ih chunk hq').mono (fun _ hq => hq) (fun flat' h' _ hr => ?_) fun _ _ _ he => he
      obtain ⟨hfirst, hrest⟩ := hr
      -- the chunk stands between the offset and its end
      have hle : offset ≤ stop := by
        change offset ≤ chunkEnd _ _ _ _
        rw [chunkEnd]
        omega
      have hsum : offset * elementSize + chunk.val.length = stop * elementSize := by
        rw [chunk.property, ← Nat.add_mul, Nat.add_sub_cancel' hle]
      have hoffset : (flat.val.take (offset * elementSize)).length = offset * elementSize := by
        rw [List.length_take, flat.property]
        exact Nat.min_eq_left (Nat.mul_le_mul_right _ hlt.le)
      have hstored : flat'.val.take (stop * elementSize) =
          flat.val.take (offset * elementSize) ++ chunk.val := by
        refine hfirst.trans ?_
        rw [store]
        refine List.take_left' ?_
        rw [List.length_append, hoffset, hsum]
      have hwhole : flat'.val = flat.val.take (offset * elementSize) ++
          (chunk.val ++ flat'.val.drop (stop * elementSize)) := by
        rw [← List.append_assoc, ← hstored, List.take_append_drop]
      constructor
      · rw [hwhole]
        exact List.take_left' hoffset
      · rw [hrest, inbox_received, List.flatten_append, List.flatten_singleton,
          List.append_assoc]
        congr 1
        conv_rhs => rw [hwhole]
        exact (List.drop_left' hoffset).symm
  | case2 flat offset hge =>
      rw [recvChunks, dif_neg hge]
      refine .ret hq ⟨rfl, ?_⟩
      have hall : numel * elementSize ≤ offset * elementSize :=
        Nat.mul_le_mul_right _ (Nat.not_lt.mp hge)
      rw [List.drop_of_length_le (flat.property.trans_le hall), List.append_nil]

/-- A tensor of the shape and the dtype of a buffer. -/
structure Like (buffer t : Tensor T) : Prop where
  dtype : t.dtype = buffer.dtype
  shape : t.shape = buffer.shape

theorem along_recvStaged {channel : Nat} (hrecv : ∀ h size r, Q h →
    Q (h ++ [⟨.recv channel size, r⟩])) (memory : Nat → UInt8) (operation : String)
    (buffer : Tensor T) (hq : Q h) :
    (self.recvStaged memory channel operation buffer).Along Q
      (fun t h' => Like buffer t ∧
        (inbox channel h').flatten = (inbox channel h).flatten ++ t.data.val)
      (fun _ h => Q h) h := by
  rw [recvStaged]
  refine (self.along_recvChunks hrecv _ 0 operation hq).bind fun flat h' hq' ⟨_, hrest⟩ => ?_
  rw [Nat.zero_mul, List.drop_zero] at hrest
  exact .ret hq' ⟨⟨rfl, rfl⟩, hrest⟩

/-- Tensors are received one after another, like the buffers. -/
theorem along_recvAll {channel : Nat} (hrecv : ∀ h size r, Q h →
    Q (h ++ [⟨.recv channel size, r⟩])) (memory : Nat → UInt8) (operation : String)
    (buffers : List (Tensor T)) (hq : Q h) :
    (buffers.mapM (self.recvStaged memory channel operation)).Along Q
      (fun staged h' => List.Forall₂ Like buffers staged ∧
        (inbox channel h').flatten =
          (inbox channel h).flatten ++ staged.flatMap fun t => t.data.val)
      (fun _ h => Q h) h := by
  induction buffers generalizing h with
  | nil => exact .ret hq ⟨.nil, (List.append_nil _).symm⟩
  | cons buffer buffers ih =>
      rw [List.mapM_cons]
      refine (self.along_recvStaged hrecv memory operation buffer hq).bind
        fun t h₁ hq₁ ⟨hlike, hbytes⟩ => ?_
      refine (ih hq₁).bind fun staged h₂ hq₂ ⟨hlikes, hrest⟩ => .ret hq₂ ⟨.cons hlike hlikes, ?_⟩
      rw [hrest, hbytes, List.append_assoc, List.flatMap_cons]

end Messages

/-! ## The source -/

section Source

variable (tensors : List (Tensor T)) (key : String) (peerRank : Int) (peerHost : String)

/-- The one manifest that the source sends. -/
def SendsManifest (h : History) : Prop :=
  ∀ m, Sent h (lib.transferTag key + 1) m →
    m = self.encodedManifest lib tensors key peerRank peerHost

variable {self lib tensors key peerRank peerHost} in
theorem SendsManifest.snoc {h : History}
    (hs : self.SendsManifest lib tensors key peerRank peerHost h) {e : Event transferIface}
    (he : ∀ m r, e = ⟨.send (lib.transferTag key + 1) m, r⟩ →
      m = self.encodedManifest lib tensors key peerRank peerHost) :
    self.SendsManifest lib tensors key peerRank peerHost (h ++ [e]) := by
  rintro m ⟨r, hin⟩
  rcases List.mem_append.mp hin with hold | hnew
  · exact hs m ⟨r, hold⟩
  · exact he m r (List.mem_singleton.mp hnew).symm

theorem send_ne_send {channel n : Nat} (hne : channel ≠ n) (message : Bytes)
    (r : Except Unit Unit) (m : Bytes) (r' : Except Unit Unit) :
    (⟨.send channel message, r⟩ : Event transferIface) ≠ ⟨.send n m, r'⟩ := by
  intro heq
  have hop : (Network.Op.send channel message : transferIface.Op) = .send n m :=
    congrArg Sigma.fst heq
  cases hop
  exact hne rfl

theorem recv_ne_send {channel size n : Nat} (r : Except Unit (Block size)) (m : Bytes)
    (r' : Except Unit Unit) :
    (⟨.recv channel size, r⟩ : Event transferIface) ≠ ⟨.send n m, r'⟩ := by
  intro heq
  have hop : (Network.Op.recv channel size : transferIface.Op) = .send n m :=
    congrArg Sigma.fst heq
  cases hop

/-- The source sends its manifest, and returns on an acknowledgement that reads 1. -/
theorem along_serve :
    (self.serve lib tensors key peerRank peerHost).Along
      (self.SendsManifest lib tensors key peerRank peerHost)
      (fun _ h => ∃ m, Got h (lib.transferTag key + 4) m ∧ item32 m = 1)
      (fun _ _ => True) [] := by
  have hstart : self.SendsManifest lib tensors key peerRank peerHost [] := by
    rintro m ⟨r, hin⟩
    cases hin
  have hother : ∀ {e : Event transferIface} {h : History},
      self.SendsManifest lib tensors key peerRank peerHost h →
      (∀ m r, e ≠ ⟨.send (lib.transferTag key + 1) m, r⟩) →
      self.SendsManifest lib tensors key peerRank peerHost (h ++ [e]) :=
    fun hs hne => hs.snoc fun m r heq => absurd heq (hne m r)
  rw [serve]
  refine (along_lift hstart fun _ => trivial).bind fun _ h hs _ => ?_
  refine (along_lift hs fun _ => trivial).bind fun length h hs _ => ?_
  refine (along_send (R := fun _ _ => True) hs
    (fun r => hother hs (send_ne_send (by omega) _ _)) (fun _ => trivial)
    fun _ => trivial).bind fun _ h hs _ => ?_
  refine (along_send (R := fun _ _ => True) hs (fun r => hs.snoc fun m r' heq => ?_)
    (fun _ => trivial) fun _ => trivial).bind fun _ h hs _ => ?_
  · cases heq
    rfl
  refine (along_recv (R := fun _ _ => True) hs (fun r => hother hs (recv_ne_send _))
    (fun _ => trivial) fun _ => trivial).bind fun accepted h hs _ => ?_
  split
  · exact .raise hs trivial
  refine (along_forM (fun t h hs => self.along_sendChunks
    (fun h message r hs => hother hs (send_ne_send (by omega) _ _)) t 0 _ hs) tensors hs).bind
    fun _ h hs _ => ?_
  refine (along_recv (R := fun m h => Got h (lib.transferTag key + 4) m.val) hs
    (fun r => hother hs (recv_ne_send _))
    (fun m => ⟨4, m.property, List.mem_append_right _ List.mem_cons_self⟩)
    fun _ => trivial).bind fun verified h hs hgot => ?_
  split
  · exact .raise hs trivial
  · rename_i hone
    exact .ret hs ⟨verified.val, hgot, not_not.mp hone⟩

end Source

/-! ## The manifest as it is read -/

section Manifest

variable {lib : Library} {tensors buffers : List (Tensor T)} {key : String} {peerRank : Int}
  {peerHost : String}

theorem mapM_readInt (checksums : List Int) :
    (checksums.map Json.int).mapM readInt = some checksums := by
  induction checksums with
  | nil => rfl
  | cons c rest ih =>
      rw [List.map_cons, List.mapM_cons, ih]
      rfl

theorem plain_tensorEntry (t : Tensor T) : Json.Plain (tensorEntry t) :=
  ⟨show ["bytes", "dtype", "numel", "shape"].Nodup by decide, trivial, trivial, trivial,
    Json.plainItems_map (f := fun n => Json.int n) (fun _ => trivial) t.shape, trivial⟩

theorem plain_payloadManifest (self : TorchDistTransfer) :
    Json.Plain (self.payloadManifest lib tensors key peerRank peerHost) :=
  ⟨show ["checksums", "destination_host", "destination_rank", "key", "protocol_version",
      "source_host", "source_rank", "tensors"].Nodup by decide,
    Json.plainItems_map (f := Json.int) (fun _ => trivial) _, trivial, trivial, trivial,
    trivial, trivial,
    trivial, Json.plainItems_map plain_tensorEntry tensors, trivial⟩

/-- The manifest that arrives as it was sent is the one that was sent. -/
theorem loads_encodedManifest (self : TorchDistTransfer) :
    (Json.decodeBytes ⟨(self.encodedManifest lib tensors key peerRank peerHost).toArray⟩).bind
      Json.loadsLast = some (self.payloadManifest lib tensors key peerRank peerHost) := by
  have hplain : Json.Plain (self.payloadManifest lib tensors key peerRank peerHost) :=
    plain_payloadManifest self
  have hprintable : ∀ c ∈ (String.ofList (Json.write
      (self.payloadManifest lib tensors key peerRank peerHost))).toList, Json.Printable c := by
    rw [String.toList_ofList]
    exact Json.printable_write hplain
  rw [encodedManifest, Array.toArray_toList, Json.decodeBytes_toUTF8 hprintable,
    Option.bind_some, Json.loadsLast, Json.loadsWith_write Json.keeps_keepLast hplain.readable]

/-- What is accepted of a source's manifest is the checksums of its tensors. -/
theorem readManifest_encoded {source destination : TorchDistTransfer} {key' : String}
    {peerRank' : Int} {peerHost' : String} {checksums : List Int}
    (h : destination.readManifest lib (source.encodedManifest lib tensors key peerRank peerHost)
      buffers key' peerRank' peerHost' = .ok checksums) :
    checksums = shardChecksums lib source.crcChunk tensors := by
  rw [readManifest, loads_encodedManifest] at h
  simp only [validateManifest, payloadManifest, raiseIf_bind_ok_iff] at h
  obtain ⟨-, -, -, -, -, -, -, h⟩ := h
  have hfield : ∀ (v : Json) (rest : List (String × Json)),
      fieldOf (("checksums", v) :: rest) "checksums" = v := fun _ _ => rfl
  rw [hfield] at h
  dsimp only at h
  rw [mapM_readInt] at h
  exact (Except.ok.inj h).symm

end Manifest

/-! ## The destination -/

section Destination

variable (buffers : List (Tensor T)) (key : String) (peerRank : Int) (peerHost : String)

/-- What was received: tensors like the buffers of the caller, of the bytes that came as
the payload. -/
structure Receives (h : History) (staged : List (Tensor T)) : Prop where
  like : List.Forall₂ Like buffers staged
  bytes : (inbox (lib.transferTag key + 3) h).flatten = staged.flatMap fun t => t.data.val

/-- The tensors are what was received, and their checksums were compared with those of a
manifest that was received and accepted, and are the same. -/
structure Verified (endpoint : TorchDistTransfer) (lib : Library) (buffers : List (Tensor T))
    (key : String) (peerRank : Int) (peerHost : String) (h : History)
    (staged : List (Tensor T)) : Prop where
  received : Receives lib buffers key h staged
  accepted : ∃ encoded, Got h (lib.transferTag key + 1) encoded ∧
    endpoint.readManifest lib encoded buffers key peerRank peerHost =
      .ok (shardChecksums lib endpoint.crcChunk staged)
  compared : Compared h (shardChecksums lib endpoint.crcChunk staged)

/-- Nothing is acknowledged and nothing copied that is not verified. -/
def Checked (h : History) : Prop :=
  (∀ m, Sent h (lib.transferTag key + 4) m → item32 m = 1 →
    ∃ staged, self.Verified lib buffers key peerRank peerHost h staged) ∧
  (Copied h → ∃ staged, self.Verified lib buffers key peerRank peerHost h staged)

/-- Nothing is acknowledged or copied yet. -/
def Quiet (key : String) (h : History) : Prop :=
  (∀ m, ¬Sent h (lib.transferTag key + 4) m) ∧ ¬Copied h

variable {self lib buffers key peerRank peerHost} {h : History} {staged : List (Tensor T)}

/-- The event is no message on the channel. -/
def NotOn (channel : Nat) (e : Event transferIface) : Prop :=
  ∀ (size : Nat) (m : Block size), e ≠ ⟨.recv channel size, .ok m⟩

theorem NotOn.inbox {channel : Nat} {e : Event transferIface} (he : NotOn channel e)
    (h : History) : inbox channel (h ++ [e]) = inbox channel h := inbox_other he h

theorem notOn_send {channel n : Nat} (message : Bytes) (r : Except Unit Unit) :
    NotOn n ⟨.send channel message, r⟩ := fun _ _ heq => by cases congrArg Sigma.fst heq

theorem notOn_act {n : Nat} (a : Action) (r : a.Answer) : NotOn n ⟨.act a, r⟩ :=
  fun _ _ heq => by cases congrArg Sigma.fst heq

theorem notOn_recv {channel n size : Nat} (hne : channel ≠ n) (r : Except Unit (Block size)) :
    NotOn n ⟨.recv channel size, r⟩ := by
  intro size' m heq
  have hop : (Network.Op.recv channel size : transferIface.Op) = .recv n size' :=
    congrArg Sigma.fst heq
  cases hop
  exact hne rfl

theorem Receives.snoc (hr : Receives lib buffers key h staged) {e : Event transferIface}
    (he : NotOn (lib.transferTag key + 3) e) : Receives lib buffers key (h ++ [e]) staged :=
  ⟨hr.like, by rw [he.inbox]; exact hr.bytes⟩

theorem Verified.snoc (hv : self.Verified lib buffers key peerRank peerHost h staged)
    {e : Event transferIface} (he : NotOn (lib.transferTag key + 3) e) :
    self.Verified lib buffers key peerRank peerHost (h ++ [e]) staged := by
  obtain ⟨encoded, hgot, hread⟩ := hv.accepted
  exact ⟨hv.received.snoc he, ⟨encoded, hgot.append [e], hread⟩, hv.compared.append [e]⟩

theorem Verified.checked (hv : self.Verified lib buffers key peerRank peerHost h staged) :
    self.Checked lib buffers key peerRank peerHost h :=
  ⟨fun _ _ _ => ⟨staged, hv⟩, fun _ => ⟨staged, hv⟩⟩

theorem Quiet.checked (hq : Quiet lib key h) :
    self.Checked lib buffers key peerRank peerHost h :=
  ⟨fun m hs => absurd hs (hq.1 m), fun hc => absurd hc hq.2⟩

theorem Quiet.snoc (hq : Quiet lib key h) {e : Event transferIface}
    (hsend : ∀ m r, e ≠ ⟨.send (lib.transferTag key + 4) m, r⟩)
    (hcopy : ∀ i r, e ≠ ⟨.act (.copy i), r⟩) : Quiet lib key (h ++ [e]) := by
  refine ⟨?_, ?_⟩
  · rintro m ⟨r, hin⟩
    rcases List.mem_append.mp hin with hold | hnew
    · exact hq.1 m ⟨r, hold⟩
    · exact hsend m r (List.mem_singleton.mp hnew).symm
  · rintro ⟨i, r, hin⟩
    rcases List.mem_append.mp hin with hold | hnew
    · exact hq.2 ⟨i, r, hold⟩
    · exact hcopy i r (List.mem_singleton.mp hnew).symm

theorem Quiet.recv (hq : Quiet lib key h) {channel size : Nat}
    (r : Except Unit (Block size)) :
    Quiet lib key (h ++ [(⟨.recv channel size, r⟩ : Event transferIface)]) :=
  hq.snoc (recv_ne_send r) fun _ _ heq => by cases congrArg Sigma.fst heq

theorem Quiet.send (hq : Quiet lib key h) {channel : Nat}
    (hne : channel ≠ lib.transferTag key + 4) (message : Bytes) (r : Except Unit Unit) :
    Quiet lib key (h ++ [(⟨.send channel message, r⟩ : Event transferIface)]) :=
  hq.snoc (send_ne_send hne message r) fun _ _ heq => by cases congrArg Sigma.fst heq

/-- Messages on other channels, before anything is verified. -/
theorem along_quiet_send {channel : Nat} {message : Bytes} {operation : String}
    (hne : channel ≠ lib.transferTag key + 4) (hq : Quiet lib key h) :
    (Transfer.send channel message operation).Along
      (self.Checked lib buffers key peerRank peerHost)
      (fun _ h' => Quiet lib key h' ∧ ∃ r, h' = h ++ [⟨.send channel message, r⟩])
      (fun _ h => ¬Copied h) h :=
  along_send hq.checked (fun r => (hq.send hne message r).checked)
    (fun r => ⟨hq.send hne message r, r, rfl⟩) fun r => (hq.send hne message r).2

theorem along_quiet_recv {channel size : Nat} {operation : String} (hq : Quiet lib key h) :
    (Transfer.recv channel size operation).Along
      (self.Checked lib buffers key peerRank peerHost)
      (fun m h' => Quiet lib key h' ∧ h' = h ++ [⟨.recv channel size, .ok m⟩])
      (fun _ h => ¬Copied h) h :=
  along_recv hq.checked (fun r => (hq.recv r).checked) (fun m => ⟨hq.recv (.ok m), rfl⟩)
    fun r => (hq.recv r).2

/-- The payload goes into buffers that are not the caller's. -/
theorem along_recvPayload (memory : Nat → UInt8) (operation : String) (hq : Quiet lib key h)
    (hempty : inbox (lib.transferTag key + 3) h = []) :
    (buffers.mapM (self.recvStaged memory (lib.transferTag key + 3) operation)).Along
      (self.Checked lib buffers key peerRank peerHost)
      (fun staged h' => Quiet lib key h' ∧ Receives lib buffers key h' staged)
      (fun _ h => ¬Copied h) h := by
  refine (self.along_recvAll (Q := Quiet lib key) (fun h size r hq => hq.recv r) memory operation
    buffers hq).mono (fun _ hq => hq.checked) (fun staged h' hq ⟨hlike, hbytes⟩ => ?_)
    fun _ _ hq _ => hq.2
  rw [hempty] at hbytes
  exact ⟨hq, hlike, hbytes⟩

theorem not_copied_send (hc : ¬Copied h) (channel : Nat) (message : Bytes)
    (r : Except Unit Unit) :
    ¬Copied (h ++ [(⟨.send channel message, r⟩ : Event transferIface)]) := by
  rintro ⟨i, r', hin⟩
  rcases List.mem_append.mp hin with hold | hnew
  · exact hc ⟨i, r', hold⟩
  · cases congrArg Sigma.fst (List.mem_singleton.mp hnew)

theorem Quiet.refuse (hq : Quiet lib key h) (r : Except Unit Unit) :
    self.Checked lib buffers key peerRank peerHost
      (h ++ [(⟨.send (lib.transferTag key + 4) (int32Tensor 0), r⟩ : Event transferIface)]) := by
  refine ⟨?_, fun hc => absurd hc (not_copied_send hq.2 _ _ r)⟩
  rintro m ⟨r', hin⟩ hone
  rcases List.mem_append.mp hin with hold | hnew
  · exact absurd ⟨r', hold⟩ (hq.1 m)
  · cases List.mem_singleton.mp hnew
    exact absurd hone (by decide)

/-- The comparison goes on record, whatever comes of it. -/
theorem along_verify {actual expected : List Int} {E : TransferError → History → Prop}
    (hq : Quiet lib key h) :
    (verify actual expected).Along (self.Checked lib buffers key peerRank peerHost)
      (fun _ h' => Quiet lib key h' ∧ h' = h ++ [⟨.act (.verify actual expected), ()⟩]) E h := by
  have hquiet : Quiet lib key
      (h ++ [(⟨.act (.verify actual expected), ()⟩ : Event transferIface)]) :=
    hq.snoc (fun _ _ heq => by cases congrArg Sigma.fst heq)
      fun _ _ heq => by cases congrArg Sigma.fst heq
  exact .call hq.checked fun _ => .ret hquiet.checked ⟨hquiet, rfl⟩

/-- What is handed to the caller is what was received, and verified, and before that nothing
is copied. -/
theorem along_stagePayload (memory : Nat → UInt8) {expected : List Int} {encoded : Bytes}
    (hread : self.readManifest lib encoded buffers key peerRank peerHost = .ok expected)
    (hq : Quiet lib key h) (hgot : Got h (lib.transferTag key + 1) encoded)
    (hempty : inbox (lib.transferTag key + 3) h = []) :
    (self.stagePayload lib memory buffers key expected).Along
      (self.Checked lib buffers key peerRank peerHost)
      (fun staged h => self.Verified lib buffers key peerRank peerHost h staged)
      (fun _ h => ¬Copied h) h := by
  rw [stagePayload]
  refine (along_quiet_send (by omega) hq).bind fun _ h₁ _ ⟨hq, r, hh₁⟩ => ?_
  subst hh₁
  replace hgot := hgot.append [⟨.send (lib.transferTag key + 2) (int32Tensor 1), r⟩]
  rw [← (notOn_send (int32Tensor 1) r).inbox] at hempty
  refine (along_recvPayload memory _ hq hempty).bind_after (List.prefix_refl _)
    fun staged h₂ _ ⟨hq, hreceived⟩ hpre => ?_
  replace hgot := hgot.of_prefix hpre
  generalize hactual : shardChecksums lib self.crcChunk staged = actual
  refine (along_verify hq).bind fun _ h₃ _ ⟨hq, hh₃⟩ => ?_
  by_cases heq : actual = expected
  · have hv : self.Verified lib buffers key peerRank peerHost h₃ staged := by
      subst heq hactual hh₃
      exact ⟨hreceived.snoc (notOn_act _ _), ⟨encoded, hgot.append _, hread⟩,
        List.mem_append_right _ List.mem_cons_self⟩
    simp only [if_pos heq]
    exact (along_send (R := fun _ h => self.Verified lib buffers key peerRank peerHost h staged)
      (E := fun _ h => ¬Copied h) hv.checked (fun r => (hv.snoc (notOn_send _ r)).checked)
      (fun r => hv.snoc (notOn_send _ r)) (not_copied_send hq.2 _ _)).bind
        fun _ _ hchecked hv => .ret hchecked hv
  · simp only [if_neg heq]
    exact (along_send (R := fun _ h => ¬Copied h) (E := fun _ h => ¬Copied h) hq.checked
      hq.refuse (not_copied_send hq.2 _ _) (not_copied_send hq.2 _ _)).bind
        fun _ _ hchecked hc => .raise hchecked hc

theorem quiet_nil : Quiet lib key [] := by
  refine ⟨?_, ?_⟩
  · rintro m ⟨r, hin⟩
    cases hin
  · rintro ⟨i, r, hin⟩
    cases hin

variable (self lib buffers key peerRank peerHost) in
theorem along_stage (memory : Nat → UInt8) :
    (self.stage lib memory buffers key peerRank peerHost).Along
      (self.Checked lib buffers key peerRank peerHost)
      (fun staged h => self.Verified lib buffers key peerRank peerHost h staged)
      (fun _ h => ¬Copied h) [] := by
  have hstart : Quiet lib key [] := quiet_nil
  rw [stage]
  refine (along_lift hstart.checked fun _ => hstart.2).bind fun _ h _ ⟨_, hnil⟩ => ?_
  subst hnil
  refine (along_quiet_recv hstart).bind fun encodedSize h _ ⟨hq, hh⟩ => ?_
  subst hh
  by_cases hsize : item encodedSize.val ≤ 0 ∨ manifestLimit < item encodedSize.val
  · simp only [if_pos hsize]
    exact .raise hq.checked hq.2
  simp only [if_neg hsize]
  refine (along_quiet_recv hq).bind fun encoded h _ ⟨hq, hh⟩ => ?_
  subst hh
  cases hread : self.readManifest lib encoded.val buffers key peerRank peerHost with
  | error e =>
      exact (along_quiet_send (by omega) hq).bind fun _ h _ ⟨hq, _⟩ => .raise hq.checked hq.2
  | ok expected =>
      refine along_stagePayload memory hread hq
        ⟨_, encoded.property, List.mem_append_right _ List.mem_cons_self⟩ ?_
      refine ((notOn_recv ?_ (.ok encoded)).inbox _).trans ((notOn_recv ?_ (.ok encodedSize)).inbox [])
      · omega
      · omega

/-- The copies write what is staged, buffer by buffer; one that fails was tried. -/
theorem along_commit (done old rest : List (Tensor T)) (hlen : old.length = rest.length)
    (hv : self.Verified lib buffers key peerRank peerHost h staged) :
    (commit done.length rest (done ++ old)).Along (self.Checked lib buffers key peerRank peerHost)
      (fun x h => self.Verified lib buffers key peerRank peerHost h staged ∧ x.2 = done ++ rest)
      (fun x h => Copied h ∧ self.Verified lib buffers key peerRank peerHost h staged ∧
        ∃ n, x.2 = done ++ (rest.take n ++ old.drop n)) h := by
  induction rest generalizing done old h with
  | nil =>
      obtain rfl := List.length_eq_zero_iff.mp hlen
      exact .ret hv.checked ⟨hv, rfl⟩
  | cons source rest ih =>
      obtain ⟨first, old, rfl⟩ := List.exists_cons_of_length_eq_add_one hlen
      refine .call hv.checked fun r => ?_
      cases r with
      | ok _ =>
          have hset : (done ++ first :: old).set done.length source = (done ++ [source]) ++ old := by
            simp
          have hrest := ih (done ++ [source]) old (Nat.succ.inj hlen)
            (hv.snoc (e := ⟨.act (.copy done.length), .ok ()⟩) (notOn_act _ _))
          rw [List.length_append, List.length_singleton, ← hset] at hrest
          refine hrest.mono (fun _ hq => hq) (fun x h _ ⟨hv, hx⟩ => ⟨hv, ?_⟩)
            fun x h _ ⟨hc, hv, n, hx⟩ => ⟨hc, hv, n + 1, ?_⟩
          · rw [hx, List.append_assoc, List.singleton_append]
          · rw [hx, List.append_assoc, List.take_succ_cons, List.drop_succ_cons]
            rfl
      | error _ =>
          have hv' := hv.snoc (e := ⟨.act (.copy done.length), .error ()⟩) (notOn_act _ _)
          exact .raise hv'.checked
            ⟨⟨done.length, _, List.mem_append_right _ List.mem_cons_self⟩, hv', 0, rfl⟩

variable (self lib buffers key peerRank peerHost) in
/-- **The destination**: what it acknowledges is verified, and what it copies is what it
received and verified. -/
theorem along_fetch (memory : Nat → UInt8) :
    (self.fetch lib memory key peerRank peerHost buffers).Along
      (self.Checked lib buffers key peerRank peerHost)
      (fun x h => self.Verified lib buffers key peerRank peerHost h x.2)
      (fun x h => ¬Copied h ∧ x.2 = buffers ∨ Copied h ∧
        ∃ staged n, self.Verified lib buffers key peerRank peerHost h staged ∧
          x.2 = staged.take n ++ buffers.drop n) [] := by
  refine Along.bind (R := fun x h => x.2 = buffers ∧
      self.Verified lib buffers key peerRank peerHost h x.1)
    (E := fun x h => ¬Copied h ∧ x.2 = buffers ∨ Copied h ∧
      ∃ staged n, self.Verified lib buffers key peerRank peerHost h staged ∧
        x.2 = staged.take n ++ buffers.drop n)
    (((along_stage self lib buffers key peerRank peerHost memory).lift buffers).mono
      (fun _ hq => hq) (fun _ _ _ hr => hr) fun _ _ _ he => .inl ⟨he.2, he.1⟩)
    fun x h _ ⟨hbuffers, hv⟩ => ?_
  obtain ⟨staged, w⟩ := x
  obtain rfl : w = buffers := hbuffers
  refine (along_commit [] w staged hv.received.like.length_eq hv).mono (fun _ hq => hq)
    (fun x h _ ⟨hv, hx⟩ => ?_) fun x h _ ⟨hc, hv, n, hx⟩ => .inr ⟨hc, staged, n, hv, hx⟩
  rw [hx]
  exact hv

end Destination

end TorchDistTransfer

/-! ## The two together -/

open TorchDistTransfer

/-- **The ends of a transfer agree.**  Whatever the network loses, repeats or garbles: a fetch
that raises before it copies leaves the buffers as they were; it copies only what it received,
after its checksums were found to be those of the manifest that it received, and when it
returns that is what the buffers are; and the source returns only on an acknowledgement that
reads 1.  Where manifests and acknowledgements arrive as they were sent, the checksums of what
the destination received are then those of the tensors that were served. -/
theorem transfer_agreement (lib : Library) {delivers : Nat → Bytes → Bytes → Prop}
    (source destination : TorchDistTransfer) (tensors buffers : List (Tensor T)) (key : String)
    (peerRank peerRank' : Int) (peerHost peerHost' : String) (memory : Nat → UInt8)
    {c : Pair Unit Fills Action.Answer TransferError Unit (TransferError × List (Tensor T))
      (Unit × List (Tensor T))}
    (hrun : Network.Run delivers (.start (source.serve lib tensors key peerRank peerHost)
      (destination.fetch lib memory key peerRank' peerHost' buffers)) c) :
    (∀ e buffers', c.right.program = .raise (e, buffers') →
      ¬Copied c.right.history ∧ buffers' = buffers ∨
      Copied c.right.history ∧ ∃ staged n,
        destination.Verified lib buffers key peerRank' peerHost' c.right.history staged ∧
        buffers' = staged.take n ++ buffers.drop n) ∧
    (∀ buffers', c.right.program = .ret ((), buffers') →
      destination.Verified lib buffers key peerRank' peerHost' c.right.history buffers') ∧
    (Copied c.right.history → ∃ staged,
      destination.Verified lib buffers key peerRank' peerHost' c.right.history staged) ∧
    (c.left.program = .ret () →
      ∃ m, Got c.left.history (lib.transferTag key + 4) m ∧ item32 m = 1) ∧
    (c.left.program = .ret () →
      (∀ n ∈ [1, 4], ∀ m m', delivers (lib.transferTag key + n) m m' → m' = m) →
      ∃ staged : List (Tensor T),
        destination.Verified lib buffers key peerRank' peerHost' c.right.history staged ∧
        shardChecksums lib destination.crcChunk staged =
          shardChecksums lib source.crcChunk tensors) := by
  have hinv := hrun.inv
  have hserve := (source.along_serve lib tensors key peerRank peerHost).ran hinv.left
  have hfetch := (along_fetch destination lib buffers key peerRank' peerHost' memory).ran
    hinv.right
  rw [List.nil_append] at hserve hfetch
  have hgot : c.left.program = .ret () →
      ∃ m, Got c.left.history (lib.transferTag key + 4) m ∧ item32 m = 1 := by
    intro hret
    rw [hret] at hserve
    exact hserve.of_ret
  refine ⟨fun e buffers' hraise => ?_, fun buffers' hret => ?_, hfetch.now.2, hgot,
    fun hret hdelivers => ?_⟩
  · rw [hraise] at hfetch
    exact hfetch.of_raise
  · rw [hret] at hfetch
    exact hfetch.of_ret
  · obtain ⟨ack, hack, hone⟩ := hgot hret
    obtain ⟨ack', hsent, hd⟩ := hinv.toLeft _ ack hack
    cases hdelivers 4 (by decide) _ _ hd
    obtain ⟨staged, hv⟩ := hfetch.now.1 ack hsent hone
    obtain ⟨encoded, hmanifest, hread⟩ := hv.accepted
    obtain ⟨encoded', hsent', hd'⟩ := hinv.toRight _ encoded hmanifest
    cases hdelivers 1 (by decide) _ _ hd'
    cases hserve.now encoded hsent'
    exact ⟨staged, hv, readManifest_encoded hread⟩

/-! ## One byte, pulled from one host to another -/

/-- What the library answers for the messages below. -/
def sampleLibrary : Library where
  crc32 bs := if bs = [7] then 1281784366 else if bs = [9] then 2883475241 else 0
  transferTag _ := 406326723
  repr text := "'" ++ text ++ "'"
  floatEq _ _ := false

def sampleEndpoint (rank : Int) (hostname : String) : TorchDistTransfer :=
  ⟨rank, hostname, 4, 4, by decide, by decide⟩

def sampleTensor (byte : UInt8) : Tensor sampleTorch := ⟨.uint8, [1], ⟨[byte], rfl⟩⟩

def sampleServe : TransferM Unit :=
  (sampleEndpoint 0 "a").serve sampleLibrary [sampleTensor 7] "k" 1 "b"

def sampleFetch : Prog transferIface (TransferError × List (Tensor sampleTorch))
    (Unit × List (Tensor sampleTorch)) :=
  (sampleEndpoint 1 "b").fetch sampleLibrary (fun _ => 0) "k" 0 "a" [sampleTensor 0]

/-- The manifest of the byte 7. -/
def sampleManifest : Bytes :=
  (sampleEndpoint 0 "a").encodedManifest sampleLibrary [sampleTensor 7] "k" 1 "b"

theorem sampleManifest_length : sampleManifest.length = 203 := by decide +kernel

/-- What the source does when it hears only good of its payload. -/
def sampleServed : History :=
  [⟨.send 406326723 (littleEndian 8 203), .ok ()⟩, ⟨.send 406326724 sampleManifest, .ok ()⟩] ++
  [⟨.recv 406326725 4, .ok ⟨[1, 0, 0, 0], rfl⟩⟩, ⟨.send 406326726 [7], .ok ()⟩] ++
  [⟨.recv 406326727 4, .ok ⟨[1, 0, 0, 0], rfl⟩⟩]

theorem ran_send (channel : Nat) (message : Bytes) (operation : String) :
    (send channel message operation).Ran [⟨.send channel message, .ok ()⟩] (.ret ()) :=
  .cons (.nil _)

theorem ran_recv (channel size : Nat) (m : Block size) (operation : String) :
    (recv channel size operation).Ran [⟨.recv channel size, .ok m⟩] (.ret m) :=
  .cons (.nil _)

theorem ran_sendChunks (rank : Int) (hostname : String) (channel : Nat) (byte : UInt8)
    (operation : String) :
    ((sampleEndpoint rank hostname).sendChunks channel (sampleTensor byte) 0 operation).Ran
      [⟨.send channel [byte], .ok ()⟩] (.ret ()) := by
  have hstop : chunkEnd (sampleEndpoint rank hostname).chunkSize
      (sampleTorch.elementSize (sampleTensor byte).dtype) (sampleTensor byte).numel 0 = 1 :=
    show chunkEnd 4 1 1 0 = 1 by decide
  have hslice : slice (sampleTensor byte) 0 1 = [byte] := rfl
  rw [TorchDistTransfer.sendChunks,
    if_pos (show 0 < (sampleTensor byte).numel from Nat.one_pos)]
  simp only [hstop, hslice]
  refine ((ran_send channel [byte] operation).bind (.nil _)).append ?_
  rw [TorchDistTransfer.sendChunks,
    if_neg (show ¬1 < (sampleTensor byte).numel from Nat.lt_irrefl 1)]
  exact .nil _

theorem ran_sampleServe : sampleServe.Ran sampleServed (.ret ()) := by
  rw [sampleServe, serve]
  refine .bind (h := []) (.nil _) ?_
  dsimp only
  rw [← sampleManifest, lengthMessage, sampleManifest_length]
  refine .bind (h := []) (a := littleEndian 8 203) (.nil _) ?_
  refine (ran_send _ _ _).bind ((ran_send _ _ _).bind ((ran_recv _ 4 ⟨[1, 0, 0, 0], rfl⟩ _).bind
    ?_))
  rw [if_neg (by decide)]
  have hpayload : ([sampleTensor 7].forM fun t => (sampleEndpoint 0 "a").sendChunks 406326726 t 0
      (sampleLibrary.repr "k" ++ " payload send")).Ran [⟨.send 406326726 [7], .ok ()⟩]
        (.ret ()) :=
    (ran_sendChunks 0 "a" 406326726 7 _).bind (.nil _)
  refine hpayload.bind ((ran_recv _ 4 ⟨[1, 0, 0, 0], rfl⟩ _).bind ?_)
  rw [if_neg (by decide)]
  exact .nil _

theorem sample_readManifest : (sampleEndpoint 1 "b").readManifest sampleLibrary sampleManifest
    [sampleTensor 0] "k" 0 "a" = .ok [1281784366] := by
  rw [readManifest, sampleManifest, loads_encodedManifest]
  decide +kernel

/-- What the destination does when the payload arrives as a byte with this checksum. -/
def sampleStaged (byte : UInt8) (checksum : Int) : History :=
  [⟨.recv 406326723 8, .ok ⟨littleEndian 8 203, rfl⟩⟩,
    ⟨.recv 406326724 203, .ok ⟨sampleManifest, sampleManifest_length⟩⟩,
    ⟨.send 406326725 [1, 0, 0, 0], .ok ()⟩] ++
  [⟨.recv 406326726 1, .ok ⟨[byte], rfl⟩⟩, ⟨.act (.verify [checksum] [1281784366]), ()⟩,
    ⟨.send 406326727 (int32Tensor (if [checksum] = [1281784366] then 1 else 0)), .ok ()⟩]

theorem ran_recvStaged (rank : Int) (hostname : String) (channel : Nat) (byte : UInt8)
    (operation : String) :
    ((sampleEndpoint rank hostname).recvStaged (fun _ => 0) channel operation
      (sampleTensor 0)).Ran [⟨.recv channel 1, .ok ⟨[byte], rfl⟩⟩]
        (.ret (sampleTensor byte)) := by
  have hchunks : ((sampleEndpoint rank hostname).recvChunks channel 1 1 ⟨[0], rfl⟩ 0
      operation).Ran [⟨.recv channel 1, .ok ⟨[byte], rfl⟩⟩] (.ret ⟨[byte], rfl⟩) := by
    have hone : ∀ stop, stop = 1 → ∀ fits : (∀ chunk : Block ((stop - 0) * 1),
          0 * 1 + chunk.val.length ≤ 1 * 1),
        Ran (recv channel ((stop - 0) * 1) operation >>= fun chunk =>
          (sampleEndpoint rank hostname).recvChunks channel 1 1
            (store ⟨[0], rfl⟩ (0 * 1) chunk.val (fits chunk)) stop operation)
          [⟨.recv channel 1, .ok ⟨[byte], rfl⟩⟩] (.ret ⟨[byte], rfl⟩) := by
      rintro stop rfl fits
      refine ((ran_recv channel 1 ⟨[byte], rfl⟩ operation).bind (.nil _)).append ?_
      rw [TorchDistTransfer.recvChunks, dif_neg (Nat.lt_irrefl 1)]
      exact .nil _
    rw [TorchDistTransfer.recvChunks, dif_pos Nat.one_pos]
    exact hone _ (show chunkEnd 4 1 1 0 = 1 by decide) _
  rw [recvStaged]
  exact hchunks.bind (.nil _)

theorem ran_sampleStage {byte : UInt8} {checksum : Int}
    (hsum : shardChecksums sampleLibrary 4 [sampleTensor byte] = [checksum]) :
    ((sampleEndpoint 1 "b").stage sampleLibrary (fun _ => 0) [sampleTensor 0] "k" 0 "a").Ran
      (sampleStaged byte checksum)
      (if [checksum] = [1281784366] then .ret [sampleTensor byte]
        else .raise (.runtimeError "checkpoint transfer 'k' failed checksum")) := by
  rw [stage]
  refine .bind (h := []) (.nil _) ?_
  refine (ran_recv 406326723 8 ⟨littleEndian 8 203, rfl⟩ _).bind ?_
  simp only [show item (littleEndian 8 203) = 203 by decide]
  rw [if_neg (by decide)]
  refine (ran_recv 406326724 203 ⟨sampleManifest, sampleManifest_length⟩ _).bind ?_
  simp only [sample_readManifest]
  rw [stagePayload]
  have hpayload : ([sampleTensor 0].mapM ((sampleEndpoint 1 "b").recvStaged (fun _ => 0)
      406326726 (sampleLibrary.repr "k" ++ " payload receive"))).Ran
        [⟨.recv 406326726 1, .ok ⟨[byte], rfl⟩⟩] (.ret [sampleTensor byte]) :=
    (ran_recvStaged 1 "b" 406326726 byte _).bind (.nil _)
  refine (ran_send 406326725 [1, 0, 0, 0] _).bind (hpayload.bind ?_)
  have hactual : shardChecksums sampleLibrary (sampleEndpoint 1 "b").crcChunk
      [sampleTensor byte] = [checksum] := hsum
  simp only [hactual]
  refine .cons ((ran_send 406326727 _ _).bind ?_)
  split
  · exact .nil _
  · exact .nil _

/-- What is left of the fetch then. -/
def sampleRest (byte : UInt8) (checksum : Int) : Prog transferIface
    (TransferError × List (Tensor sampleTorch)) (Unit × List (Tensor sampleTorch)) :=
  Meth.lift (if [checksum] = [1281784366] then .ret [sampleTensor byte]
    else .raise (.runtimeError "checkpoint transfer 'k' failed checksum")) [sampleTensor 0] >>=
    fun x => TorchDistTransfer.commit 0 x.1 x.2

/-- The run in which the payload arrives as a byte, and the last acknowledgement as 1. -/
theorem run_sample (delivers : Nat → Bytes → Bytes → Prop) (byte : UInt8) (checksum : Int)
    (hsum : shardChecksums sampleLibrary 4 [sampleTensor byte] = [checksum])
    (hsame : ∀ channel m, delivers channel m m) (hbyte : delivers 406326726 [7] [byte])
    (hack : delivers 406326727 (int32Tensor (if [checksum] = [1281784366] then 1 else 0))
      [1, 0, 0, 0]) :
    Network.Run delivers (.start sampleServe sampleFetch)
      ⟨⟨.ret (), sampleServed⟩, ⟨sampleRest byte checksum, sampleStaged byte checksum⟩⟩ := by
  obtain ⟨p₂, hsent, hverdict⟩ := ran_sampleServe.split
  obtain ⟨p₁, hmanifest, hpayload⟩ := hsent.split
  have hfetch : sampleFetch.Ran (sampleStaged byte checksum) (sampleRest byte checksum) :=
    ((ran_sampleStage hsum).lift [sampleTensor 0]).bind_left _
  obtain ⟨q₁, haccept, hstaged⟩ := hfetch.split
  refine ((((Run.goLeft hmanifest ?_).trans (Run.goRight haccept ?_)).trans
    (Run.goLeft hpayload ?_)).trans (Run.goRight hstaged ?_)).trans (Run.goLeft hverdict ?_)
  · simp [Allowed]
  · simp only [List.nil_append, List.forall_mem_cons, Allowed, List.not_mem_nil, false_imp_iff,
      implies_true, and_true]
    exact ⟨⟨_, ⟨.ok (), by simp⟩, hsame _ _⟩, ⟨_, ⟨.ok (), by simp⟩, hsame _ _⟩⟩
  · simp only [List.nil_append, List.forall_mem_cons, Allowed, List.not_mem_nil, false_imp_iff,
      implies_true, and_true]
    exact ⟨_, ⟨.ok (), by simp⟩, hsame _ _⟩
  · simp only [List.nil_append, List.forall_mem_cons, Allowed, List.not_mem_nil, false_imp_iff,
      implies_true, and_true]
    exact ⟨_, ⟨.ok (), by simp⟩, hbyte⟩
  · simp only [List.nil_append, List.forall_mem_cons, Allowed, List.not_mem_nil, false_imp_iff,
      implies_true, and_true]
    exact ⟨_, ⟨.ok (), by simp⟩, hack⟩

/-- Nothing is garbled: the two ends agree on the byte, which is what the buffer holds. -/
theorem transfer_agreement_sample :
    ∃ c, Network.Run (fun _ m m' => m' = m) (.start sampleServe sampleFetch) c ∧
      c.left.program = .ret () ∧ c.right.program = .ret ((), [sampleTensor 7]) ∧
      (sampleEndpoint 1 "b").Verified sampleLibrary [sampleTensor 0] "k" 0 "a"
        c.right.history [sampleTensor 7] ∧
      ∃ staged : List (Tensor sampleTorch),
        (sampleEndpoint 1 "b").Verified sampleLibrary [sampleTensor 0] "k" 0 "a"
          c.right.history staged ∧
        shardChecksums sampleLibrary 4 staged =
          shardChecksums sampleLibrary 4 [sampleTensor 7] := by
  have hstaged := run_sample (fun _ m m' => m' = m) 7 1281784366
    (by decide +kernel) (fun _ _ => rfl) rfl rfl
  have hcopy : (sampleRest 7 1281784366).Ran [⟨.act (.copy 0), .ok ()⟩]
      (.ret ((), [sampleTensor 7])) := .cons (.nil _)
  have hrun := hstaged.trans (Run.goRight hcopy (by simp [Allowed]))
  obtain ⟨-, hreturned, -, -, hagree⟩ := transfer_agreement sampleLibrary
    (sampleEndpoint 0 "a") (sampleEndpoint 1 "b") [sampleTensor 7] [sampleTensor 0] "k" 1 0 "b"
    "a" (fun _ => 0) hrun
  exact ⟨_, hrun, rfl, rfl, hreturned _ rfl, hagree rfl fun _ _ _ _ hd => hd⟩

/-- **The source can be misled.**  The byte 7 arrives as 9, the destination refuses it, and
its refusal arrives as an acknowledgement. -/
theorem serve_misled :
    ∃ c, Network.Run (fun _ _ _ => True) (.start sampleServe sampleFetch) c ∧
      c.left.program = .ret () ∧
      ∀ actual expected, (⟨.act (.verify actual expected), ()⟩ : Event transferIface) ∈
        c.right.history → actual ≠ shardChecksums sampleLibrary 4 [sampleTensor 7] := by
  have hrun := run_sample (fun _ _ _ => True) 9 2883475241
    (by decide +kernel) (fun _ _ => trivial) trivial trivial
  refine ⟨_, hrun, rfl, fun actual expected hin => ?_⟩
  have hmade : actual = [2883475241] := by
    simp only [sampleStaged, List.nil_append, List.cons_append, List.mem_cons, List.not_mem_nil,
      or_false] at hin
    rcases hin with h | h | h | h | h | h <;> cases congrArg Sigma.fst h
    rfl
  rw [hmade]
  decide +kernel

end LmResiliency.Checkpointing.Transfer
