/-
# CodecRoundTrip — when a decoded value is the encoded one

`decode_encode_iff` says exactly which values come back.  Every container
does, and so does every leaf but three: an array that has no dimension or
whose dtype is not the one its type string denotes; a NumPy scalar that is
not the element its own bytes hold; and a tensor of a subclass.

The statement is about a value read from a text as well as about the form
itself: `Reading` is what both have in common, the same fields in any order.

NumPy and PyTorch are parameters: `Library.Documented` is all that is assumed
of them, and it is load-bearing at every leaf.
-/
import LmResiliency.Lib.JsonRoundTrip
import LmResiliency.Lib.Outcome
import LmResiliency.Checkpointing.Codec

namespace LmResiliency.Checkpointing.Codec

open Outcome
open LmResiliency.Json (Reading reading_id reading_canon)

/-! ## Values inside a value -/

namespace Value

variable {T : Types}

/-- The values a value holds. -/
def children : Value T → List (Value T)
  | .dict items => items.flatMap fun (key, item) => [key, item]
  | .subdict _ items => items.flatMap fun (key, item) => [key, item]
  | .list items => items
  | .tuple items => items
  | .set items => items
  | .frozenset items => items
  | _ => []

/-- `u` is `v` or somewhere inside it. -/
inductive Within (u : Value T) : Value T → Prop
  | self : Within u u
  | child {v w : Value T} : v ∈ w.children → Within u v → Within u w

theorem forall_within_iff {P : Value T → Prop} {v : Value T} :
    (∀ u, Within u v → P u) ↔ P v ∧ ∀ c ∈ v.children, ∀ u, Within u c → P u := by
  constructor
  · intro h
    exact ⟨h v .self, fun c hc u hu => h u (.child hc hu)⟩
  · rintro ⟨hv, hc⟩ u hu
    cases hu with
    | self => exact hv
    | child hchild hwithin => exact hc _ hchild u hwithin

theorem forall_within_leaf {P : Value T → Prop} {v : Value T} (h : v.children = []) :
    (∀ u, Within u v → P u) ↔ P v := by
  rw [forall_within_iff, h]
  exact and_iff_left fun c hc => absurd hc List.not_mem_nil

end Value

open Value

variable {T : Types} (L : Library T)

/-- What a dict and a set of Python guarantee: their keys can be hashed, and
none is taken for another. -/
def Distinct : Value T → Prop
  | .dict items =>
      (∀ e ∈ items, hashable L e.1 = true) ∧
        items.Pairwise fun a b => L.same a.1 b.1 = false
  | .set items =>
      (∀ v ∈ items, hashable L v = true) ∧ items.Pairwise fun a b => L.same a b = false
  | .frozenset items =>
      (∀ v ∈ items, hashable L v = true) ∧ items.Pairwise fun a b => L.same a b = false
  | _ => True

/-- A value that exists: every dict and set in it is one. -/
def Wellformed (v : Value T) : Prop := ∀ u, Within u v → Distinct L u

/-- The type string of a dtype is short enough to be read and denotes it. -/
def Denoted (d : T.NumpyDtype) : Prop :=
  (L.typestr d).length ≤ 64 ∧ L.numpyDtype (L.typestr d) = some d ∧ T.itemsize d ≠ 0

/-- A leaf that its form determines. -/
def Faithful : Value T → Prop
  | .tensor t => t.exact = true
  | .array a => a.shape ≠ [] ∧ Denoted L a.dtype
  | .scalar s => (L.typestr s.dtype).length ≤ 64 ∧
      ∃ d, L.numpyDtype (L.typestr s.dtype) = some d ∧ L.hasobject d = false ∧
        T.itemsize d = T.itemsize s.dtype ∧ T.itemsize d ≠ 0 ∧ L.element d s.data = s
  | _ => True

/-- What the libraries document: a float reads back from its literal, a torch
dtype is the attribute its name says, a dense tensor's dtype can be allocated
and a device is the one its text names. -/
structure Library.Documented : Prop where
  float_text : ∀ x, L.readFloat (L.floatText x) = x
  dtype_name : ∀ d, ∃ name, L.dtypeStr d = "torch." ++ name ∧ name ≠ "" ∧
    '.' ∉ name.toList ∧ L.torchAttr name = some d
  dense_allocates : ∀ t : Tensor T, t.dense = true → L.allocates t.dtype = true
  device_text : ∀ d, L.parseDevice (L.deviceStr d) = some d

/-! ## Reading a form -/

section Form

variable {f : Json → Json} (hf : Reading f)
include hf

/-- The fields of a form that was read: under the same names, and as read. -/
theorem read_form (kind : String) (fields : List (String × Json)) (names : List String)
    (hnames : Json.keys fields = names) (hnd : ("kind" :: names).Nodup) :
    ∃ ms, f (form kind fields) = .obj ms ∧ Json.get? "kind" ms = some (.str kind) ∧
      (∀ name ≠ "kind", field ms name = f (field fields name)) ∧
      ∀ expected label, expected.Perm ("kind" :: names) →
        requireExactKeys ms expected label = .ok () := by
  subst hnames
  obtain ⟨ms, hms, hget, hkeys⟩ := hf.fields (("kind", .str kind) :: fields) hnd
  refine ⟨ms, hms, ?_, fun name hne => ?_, fun expected label hperm => if_pos ?_⟩
  · rw [hget]
    exact congrArg some (hf.str kind)
  · have hlook : Json.get? name (("kind", .str kind) :: fields) = Json.get? name fields := by
      rw [Json.get?, List.lookup_cons, beq_false_of_ne hne]
      rfl
    rw [field, field, hget, hlook]
    cases Json.get? name fields with
    | none => exact hf.null.symm
    | some v => rfl
  · exact ⟨fun k hk => hperm.mem_iff.mpr ((hkeys k).mp hk),
      fun k hk => (hkeys k).mpr (hperm.mem_iff.mp hk)⟩

end Form

/-! ## Leaves -/

theorem mapM_asDimension : ∀ shape : List Nat,
    (shape.map fun n : Nat => Json.int n).mapM asDimension = some shape
  | [] => rfl
  | n :: shape => by
      have hn : asDimension (Json.int n) = some n := by
        rw [asDimension, if_pos (Int.natCast_nonneg n), Int.toNat_natCast]
      rw [List.map_cons, List.mapM_cons, mapM_asDimension shape, hn]
      rfl

theorem encodeTensor_ok {L : Library T} {t : Tensor T} {j : Json} (h : encodeTensor L t = .ok j) :
    T.deviceType t.device = "cpu" ∧ t.requiresGrad = false ∧ t.dense = true ∧
      ∃ name, encodeDtype L t.dtype = .ok name ∧ j = form "torch_tensor"
        [("dtype", .str name), ("shape", encodeShape t.shape), ("data", encodeBytes t.data)] := by
  obtain ⟨hcpu, h⟩ := check_ok_iff.mp h
  obtain ⟨hgrad, h⟩ := check_ok_iff.mp h
  obtain ⟨hdense, h⟩ := check_ok_iff.mp h
  obtain ⟨name, hname, hj⟩ := bind_ok_iff.mp h
  exact ⟨not_not.mp hcpu, by simpa using hgrad, by simpa using hdense, name, hname,
    (Except.ok.inj hj).symm⟩

theorem checkItemsize_ok_iff {d : T.NumpyDtype} {u : Unit} :
    checkItemsize d = .ok u ↔ T.itemsize d ≠ 0 := by
  rw [checkItemsize, check_ok_iff]
  exact and_iff_left rfl

section Leaves

attribute [local simp] decodeKind

variable {L} {f : Json → Json} (hf : Reading f)
include hf

/-- A form is decoded by its kind, with its fields as read. -/
theorem decodeAt_form (n : Nat) (kind : String) (fields : List (String × Json))
    (names : List String) (hnames : Json.keys fields = names) (hnd : ("kind" :: names).Nodup) :
    ∃ ms, decodeAt L (n + 1) (f (form kind fields)) = decodeKind L (decodeAt L n) ms kind ∧
      (∀ name ≠ "kind", field ms name = f (field fields name)) ∧
      ∀ expected label, expected.Perm ("kind" :: names) →
        requireExactKeys ms expected label = .ok () := by
  obtain ⟨ms, hms, hkind, hfield, hkeys⟩ := read_form hf kind fields names hnames hnd
  refine ⟨ms, ?_, hfield, hkeys⟩
  rw [hms]
  simp only [decodeAt, requireMapping, bind, Except.bind, hkind]

theorem decodeBytes_read (data : List UInt8) (label : String) :
    decodeBytes (f (encodeBytes data)) label = .ok data := by
  rw [encodeBytes, hf.str, decodeBytes, String.toList_ofList, Base64.decode_encode]

theorem decodeShape_read (shape : List Nat) (message : String) :
    decodeShape (f (encodeShape shape)) message = .ok shape := by
  have hmap : (shape.map fun n : Nat => Json.int n).map f =
      shape.map fun n : Nat => Json.int n := by
    rw [List.map_map]
    exact List.map_congr_left fun n _ => hf.int n
  rw [encodeShape, hf.arr, hmap, decodeShape, mapM_asDimension]

theorem decode_none (n : Nat) : decodeAt L (n + 1) (f (form "none" [])) = .ok .none := by
  obtain ⟨ms, hms, -, hkeys⟩ := decodeAt_form (L := L) hf n "none" [] [] rfl (by decide)
  rw [hms]
  simp only [decodeKind, hkeys ["kind"] _ (.refl _), bind, Except.bind, pure, Except.pure]

/-- A form with a single field is what its kind makes of the field as read. -/
theorem decode_valued (n : Nat) {kind : String} (value : Json) {r : Except Error (Value T)}
    (h : ∀ ms, field ms "value" = f value →
      (∀ label, requireExactKeys ms ["kind", "value"] label = .ok ()) →
      decodeKind L (decodeAt L n) ms kind = r) :
    decodeAt L (n + 1) (f (form kind [("value", value)])) = r := by
  obtain ⟨ms, hms, hfield, hkeys⟩ :=
    decodeAt_form (L := L) hf n kind [("value", value)] ["value"] rfl (by decide)
  rw [hms]
  exact h ms (hfield "value" (by decide)) fun label => hkeys _ label (.refl _)

theorem decode_bytes (n : Nat) (data : List UInt8) :
    decodeAt L (n + 1) (f (form "bytes" [("value", encodeBytes data)])) =
      .ok (.bytes data) := by
  refine decode_valued hf n _ fun ms hfield hkeys => ?_
  simp only [decodeKind, hkeys, hfield, decodeBytes_read hf, bind, Except.bind, pure, Except.pure]

theorem decode_bytearray (n : Nat) (data : List UInt8) :
    decodeAt L (n + 1) (f (form "bytearray" [("value", encodeBytes data)])) =
      .ok (.bytearray data) := by
  refine decode_valued hf n _ fun ms hfield hkeys => ?_
  simp only [decodeKind, hkeys, hfield, decodeBytes_read hf, bind, Except.bind, pure, Except.pure]

theorem decode_bool (n : Nat) (b : Bool) :
    decodeAt L (n + 1) (f (form "bool" [("value", .bool b)])) = .ok (.bool b) := by
  refine decode_valued hf n _ fun ms hfield hkeys => ?_
  simp only [decodeKind, hkeys, hfield, hf.bool, decodePlain, bind, Except.bind]

theorem decode_int (n : Nat) (m : Int) :
    decodeAt L (n + 1) (f (form "int" [("value", .int m)])) = .ok (.int m) := by
  refine decode_valued hf n _ fun ms hfield hkeys => ?_
  simp only [decodeKind, hkeys, hfield, hf.int, decodePlain, bind, Except.bind]

theorem decode_float (hL : L.Documented) (n : Nat) (x : T.Float) :
    decodeAt L (n + 1) (f (form "float" [("value", .float (L.floatText x))])) =
      .ok (.float x) := by
  refine decode_valued hf n _ fun ms hfield hkeys => ?_
  simp only [decodeKind, hkeys, hfield, hf.float, decodePlain, hL.float_text, bind, Except.bind]

theorem decode_str (n : Nat) (t : String) :
    decodeAt L (n + 1) (f (form "str" [("value", .str t)])) = .ok (.str t) := by
  refine decode_valued hf n _ fun ms hfield hkeys => ?_
  simp only [decodeKind, hkeys, hfield, hf.str, decodePlain, bind, Except.bind]

theorem decode_complex (hL : L.Documented) (n : Nat) (x y : T.Float) :
    decodeAt L (n + 1) (f (form "complex"
      [("value", .arr [.float (L.floatText x), .float (L.floatText y)])])) =
      .ok (.complex x y) := by
  refine decode_valued hf n _ fun ms hfield hkeys => ?_
  simp only [decodeKind, hkeys, hfield, hf.arr, List.map_cons, List.map_nil, hf.float,
    decodeComplex, isNumber, decodeComponent, hL.float_text, Bool.and_self, if_true, bind,
    Except.bind, pure, Except.pure]

theorem decode_size {n : Nat} {dimensions : List Int} {j : Json}
    (h : encodeSize dimensions = .ok j) : decodeAt L (n + 1) (f j) = .ok (.size dimensions) := by
  obtain ⟨hneg, hj⟩ := check_ok_iff.mp h
  have hnonneg : ∀ d ∈ dimensions, 0 ≤ d := by
    intro d hd
    by_contra hlt
    exact hneg (List.any_eq_true.mpr ⟨d, hd, by simpa using hlt⟩)
  -- The dimensions are natural numbers, and are read as such.
  obtain ⟨shape, rfl⟩ : ∃ shape : List Nat, shape.map Int.ofNat = dimensions :=
    ⟨dimensions.map Int.toNat, by
      rw [List.map_map]
      exact (List.map_congr_left fun d hd => Int.toNat_of_nonneg (hnonneg d hd)).trans
        (List.map_id _)⟩
  have hshape : Json.arr ((shape.map Int.ofNat).map .int) = encodeShape shape := by
    rw [encodeShape, List.map_map]
    rfl
  cases hj
  refine decode_valued hf n _ fun ms hfield hkeys => ?_
  simp only [decodeKind, hkeys, hfield, hshape, decodeShape_read hf, bind, Except.bind, pure,
    Except.pure]

/-- A dtype is written as the name of the attribute it is. -/
theorem encodeDtype_ok (hL : L.Documented) (d : T.TorchDtype) :
    ∃ name, encodeDtype L d = .ok name ∧
      ∀ label, decodeDtype L (f (.str name)) label = .ok d := by
  obtain ⟨name, hstr, hne, hdot, hattr⟩ := hL.dtype_name d
  have hlist : (L.dtypeStr d).toList = "torch.".toList ++ name.toList := by
    rw [hstr, String.toList_append]
  have hpre : "torch.".toList.isPrefixOf (L.dtypeStr d).toList = true := by
    rw [hlist]
    exact List.isPrefixOf_iff_prefix.mpr (List.prefix_append _ _)
  have hdrop : String.ofList ((L.dtypeStr d).toList.drop 6) = name := by
    rw [hlist]
    exact String.ofList_toList
  refine ⟨name, ?_, fun label => ?_⟩
  · rw [encodeDtype]
    simp only [hpre, if_true, hdrop]
  · rw [hf.str, decodeDtype, if_neg (not_or.mpr ⟨hne, hdot⟩), hattr]

theorem decode_dtype (hL : L.Documented) {n : Nat} {d : T.TorchDtype} {j : Json}
    (h : encodeAt L (n + 1) (.dtype d) = .ok j) :
    decodeAt L (n + 1) (f j) = .ok (.dtype d) := by
  obtain ⟨name, hname, hdecode⟩ := encodeDtype_ok hf hL d
  simp only [encodeAt, hname, bind, Except.bind, pure, Except.pure, Except.ok.injEq] at h
  subst h
  refine decode_valued hf n _ fun ms hfield hkeys => ?_
  simp only [decodeKind, hkeys, hfield, hdecode, bind, Except.bind, pure, Except.pure]

theorem decode_device (hL : L.Documented) (n : Nat) (d : T.Device) :
    decodeAt L (n + 1) (f (form "torch_device" [("value", .str (L.deviceStr d))])) =
      .ok (.device d) := by
  refine decode_valued hf n _ fun ms hfield hkeys => ?_
  simp only [decodeKind, hkeys, hfield, hf.str, decodeDevice, hL.device_text, bind, Except.bind]

/-! The three leaves that need not come back. -/

/-- A tensor comes back unless it is of a subclass. -/
theorem decode_tensor_iff (hL : L.Documented) {n : Nat} {t : Tensor T} {j : Json}
    (h : encodeTensor L t = .ok j) :
    decodeAt L (n + 1) (f j) = .ok (.tensor t) ↔ t.exact = true := by
  obtain ⟨hcpu, hgrad, hdense, name, hname, rfl⟩ := encodeTensor_ok h
  obtain ⟨name', hname', hdtype⟩ := encodeDtype_ok hf hL t.dtype
  obtain rfl : name = name' := Except.ok.inj (hname.symm.trans hname')
  obtain ⟨ms, hms, hfield, hkeys⟩ := decodeAt_form (L := L) hf n "torch_tensor"
    [("dtype", .str name), ("shape", encodeShape t.shape), ("data", encodeBytes t.data)]
    ["dtype", "shape", "data"] rfl (by decide)
  have hd : field ms "dtype" = f (.str name) := hfield "dtype" (by decide)
  have hshape : field ms "shape" = f (encodeShape t.shape) := hfield "shape" (by decide)
  have hdata : field ms "data" = f (encodeBytes t.data) := hfield "data" (by decide)
  have hdevice : T.cpu = t.device := (t.plainCpu hcpu).symm
  rw [hms]
  simp only [decodeKind, hkeys ["kind", "dtype", "shape", "data"] _ (.refl _), decodeTensor, hd,
    hdtype, hshape, decodeShape_read hf, hdata, decodeBytes_read hf,
    hL.dense_allocates t hdense, if_true, t.sized, bind, Except.bind, pure, Except.pure,
    Except.ok.injEq, Value.tensor.injEq, dif_pos]
  obtain ⟨exact', device, grad, dense, dtype, shape, data, sized, plain⟩ := t
  simp only at hgrad hdense hdevice
  subst hgrad hdense
  simp only [Tensor.mk.injEq, hdevice, and_true, eq_comm]

theorem decodeNumpyDtype_ok_iff {text : String} {d : T.NumpyDtype} :
    decodeNumpyDtype L (f (.str text)) = .ok d ↔
      text.length ≤ 64 ∧ L.numpyDtype text = some d ∧ L.hasobject d = false := by
  rw [hf.str]
  simp only [decodeNumpyDtype]
  rw [check_ok_iff, not_lt]
  cases L.numpyDtype text with
  | none => simp
  | some e =>
      simp only [Option.some.injEq]
      rw [check_ok_iff]
      constructor
      · rintro ⟨hlen, hobj, he⟩
        cases he
        exact ⟨hlen, rfl, by simpa using hobj⟩
      · rintro ⟨hlen, rfl, hobj⟩
        exact ⟨hlen, by simp [hobj], rfl⟩

/-- **An array comes back exactly when it has a dimension and its type string
denotes its dtype.** -/
theorem decode_array_iff {n : Nat} {a : NumpyArray T} {j : Json}
    (h : encodeArray L a = .ok j) :
    decodeAt L (n + 1) (f j) = .ok (.array a) ↔ Faithful L (.array a) := by
  obtain ⟨hobj, h⟩ := check_ok_iff.mp h
  obtain ⟨-, hj⟩ := check_ok_iff.mp h
  cases hj
  obtain ⟨ms, hms, hfield, hkeys⟩ := decodeAt_form (L := L) hf n "numpy_array"
    [("dtype", .str (L.typestr a.dtype)), ("shape", encodeShape (contiguousShape a.shape)),
      ("data", encodeBytes a.data)] ["dtype", "shape", "data"] rfl (by decide)
  have hd : field ms "dtype" = f (.str (L.typestr a.dtype)) := hfield "dtype" (by decide)
  have hshape : field ms "shape" = f (encodeShape (contiguousShape a.shape)) :=
    hfield "shape" (by decide)
  have hdata : field ms "data" = f (encodeBytes a.data) := hfield "data" (by decide)
  have hperm : ["kind", "dtype", "data", "shape"].Perm ["kind", "dtype", "shape", "data"] := by
    decide
  rw [hms]
  simp only [decodeKind, hkeys _ _ hperm, decodeArray, hd, hshape, hdata, decodeShape_read hf,
    decodeBytes_read hf, Faithful, Denoted]
  constructor
  · intro hdecode
    obtain ⟨_, -, hdecode⟩ := bind_ok_iff.mp hdecode
    obtain ⟨d, hdtype, hdecode⟩ := bind_ok_iff.mp hdecode
    obtain ⟨hlen, hden, -⟩ := (decodeNumpyDtype_ok_iff hf).mp hdtype
    obtain ⟨_, hda, hdecode⟩ := bind_ok_iff.mp hdecode
    obtain ⟨_, hsh, hdecode⟩ := bind_ok_iff.mp hdecode
    cases hda
    cases hsh
    split at hdecode
    · obtain ⟨_, hitem, heq⟩ := bind_ok_iff.mp hdecode
      have ha := Value.array.inj (Except.ok.inj heq)
      have hdim : contiguousShape a.shape = a.shape := congrArg NumpyArray.shape ha
      obtain rfl : d = a.dtype := congrArg NumpyArray.dtype ha
      refine ⟨fun hnil => ?_, hlen, hden, checkItemsize_ok_iff.mp hitem⟩
      rw [hnil] at hdim
      exact absurd hdim (by decide)
    · cases hdecode
  · rintro ⟨hdim, hlen, hden, hitem⟩
    have hdtype := (decodeNumpyDtype_ok_iff hf).mpr ⟨hlen, hden, by simpa using hobj⟩
    have hshape' : contiguousShape a.shape = a.shape := if_neg hdim
    have hcheck : checkItemsize a.dtype = .ok () := checkItemsize_ok_iff.mpr hitem
    simp only [hdtype, hshape', a.sized, hcheck, bind, Except.bind, pure, Except.pure, dif_pos]

/-- **A numpy scalar comes back exactly when its type string denotes a dtype of
its width and the element its bytes hold is the scalar.** -/
theorem decode_scalar_iff {n : Nat} {x : NumpyScalar T} {j : Json}
    (h : encodeScalar L x = .ok j) :
    decodeAt L (n + 1) (f j) = .ok (.scalar x) ↔ Faithful L (.scalar x) := by
  obtain ⟨-, h⟩ := check_ok_iff.mp h
  obtain ⟨-, hj⟩ := check_ok_iff.mp h
  cases hj
  obtain ⟨ms, hms, hfield, hkeys⟩ := decodeAt_form (L := L) hf n "numpy_scalar"
    [("dtype", .str (L.typestr x.dtype)), ("data", encodeBytes x.data)] ["dtype", "data"] rfl
    (by decide)
  have hd : field ms "dtype" = f (.str (L.typestr x.dtype)) := hfield "dtype" (by decide)
  have hdata : field ms "data" = f (encodeBytes x.data) := hfield "data" (by decide)
  rw [hms]
  simp only [decodeKind, hkeys _ _ (.refl _), decodeScalar, hd, hdata, decodeBytes_read hf,
    Faithful]
  constructor
  · intro hdecode
    obtain ⟨_, -, hdecode⟩ := bind_ok_iff.mp hdecode
    obtain ⟨d, hdtype, hdecode⟩ := bind_ok_iff.mp hdecode
    obtain ⟨hlen, hden, hobj⟩ := (decodeNumpyDtype_ok_iff hf).mp hdtype
    obtain ⟨_, hda, hdecode⟩ := bind_ok_iff.mp hdecode
    cases hda
    obtain ⟨hwidth, hdecode⟩ := check_ok_iff.mp hdecode
    obtain ⟨_, hitem, heq⟩ := bind_ok_iff.mp hdecode
    have helement : L.element d x.data = x := Value.scalar.inj (Except.ok.inj heq)
    exact ⟨hlen, d, hden, hobj, (not_not.mp hwidth).symm.trans x.sized,
      checkItemsize_ok_iff.mp hitem, helement⟩
  · rintro ⟨hlen, d, hden, hobj, hwidth, hitem, helement⟩
    have hdtype := (decodeNumpyDtype_ok_iff hf).mpr ⟨hlen, hden, hobj⟩
    have hcheck : checkItemsize d = .ok () := checkItemsize_ok_iff.mpr hitem
    simp only [hdtype, x.sized, hwidth, hcheck, helement, ne_eq, not_true_eq_false, if_false,
      bind, Except.bind, pure, Except.pure]

end Leaves

/-! ## Containers -/

section Containers

variable {L}

theorem distinct_sublist (items : List (Value T)) : (distinct L items).Sublist items := by
  have hfold : ∀ items seen : List (Value T),
      (items.foldl (fun seen v => if seen.any (L.same · v) then seen else seen ++ [v]) seen).Sublist
        (seen ++ items) := by
    intro items
    induction items with
    | nil => intro seen; rw [List.foldl_nil, List.append_nil]
    | cons v items ih =>
        intro seen
        rw [List.foldl_cons]
        split
        · exact (ih seen).trans (List.Sublist.append_left (List.sublist_cons_self _ _) _)
        · have h := ih (seen ++ [v])
          rwa [List.append_assoc, List.singleton_append] at h
  exact hfold items []

/-- Items of which none is taken for another are a set as they are. -/
theorem distinct_eq_self {items : List (Value T)}
    (h : items.Pairwise fun a b => L.same a b = false) : distinct L items = items := by
  have hfold : ∀ items seen : List (Value T),
      (seen ++ items).Pairwise (fun a b => L.same a b = false) →
      items.foldl (fun seen v => if seen.any (L.same · v) then seen else seen ++ [v]) seen =
        seen ++ items := by
    intro items
    induction items with
    | nil => intro seen _; rw [List.foldl_nil, List.append_nil]
    | cons v items ih =>
        intro seen hpair
        have hnew : ¬seen.any (L.same · v) = true := by
          rw [List.any_eq_true]
          rintro ⟨u, hu, hsame⟩
          have hfalse := (List.pairwise_append.mp hpair).2.2 u hu v List.mem_cons_self
          rw [hfalse] at hsame
          exact Bool.false_ne_true hsame
        rw [List.foldl_cons, if_neg hnew, ih _ (by rwa [List.append_assoc]), List.append_assoc,
          List.singleton_append]
  exact hfold items [] h

/-- A set is decoded to given items exactly when they are what is decoded. -/
theorem decodeSet_ok_iff {sub : Json → Except Error (Value T)} {kind : String}
    {encoded : List Json} {items : List (Value T)} (hlen : encoded.length = items.length)
    (hhash : ∀ v ∈ items, hashable L v = true)
    (hpair : items.Pairwise fun a b => L.same a b = false)
    (hsize : encoded.length ≤ maxContainerItems) :
    decodeSet L sub kind (.arr encoded) = .ok items ↔ encoded.mapM sub = .ok items := by
  have hcheck : checkContainerSize encoded.length ("checkpoint metadata " ++ kind) = .ok () :=
    if_neg (not_lt.mpr hsize)
  have hitems : decodeItems sub kind (.arr encoded) = encoded.mapM sub := by
    rw [decodeItems, hcheck]
    rfl
  rw [decodeSet, hitems, bind_ok_iff]
  constructor
  · rintro ⟨decoded, hdecoded, hset⟩
    split at hset
    · have hdistinct : distinct L decoded = items := Except.ok.inj hset
      -- No item was dropped, so nothing was.
      have hall : distinct L decoded = decoded :=
        (distinct_sublist decoded).eq_of_length
          (by rw [hdistinct, length_mapM hdecoded, hlen])
      rw [hdecoded, ← hall, hdistinct]
    · cases hset
  · intro hdecoded
    have hall : items.all (hashable L) = true := List.all_eq_true.mpr hhash
    exact ⟨items, hdecoded, by rw [if_pos hall, distinct_eq_self hpair]; rfl⟩

/-- An item of a dict that is what a pair was decoded to. -/
def PairOk (sub : Json → Except Error (Value T)) (pair : Json) (e : Value T × Value T) : Prop :=
  ∃ k v, pair = .arr [k, v] ∧ sub k = .ok e.1 ∧ sub v = .ok e.2

theorem decodePairs_ok {sub : Json → Except Error (Value T)} :
    ∀ {pairs : List Json} {result r : List (Value T × Value T)},
      decodePairs L sub pairs result = .ok r →
        ∃ items, r = result ++ items ∧ List.Forall₂ (PairOk sub) pairs items
  | [], result, r, h => ⟨[], by rw [List.append_nil]; exact (Except.ok.inj h).symm, .nil⟩
  | pair :: pairs, result, r, h => by
      rw [decodePairs.eq_def] at h
      split at h
      · rename_i heq; cases heq
      · rename_i result' k v pairs' heq
        cases heq
        obtain ⟨key, hkey, h⟩ := bind_ok_iff.mp h
        obtain ⟨-, h⟩ := check_ok_iff.mp h
        obtain ⟨-, h⟩ := check_ok_iff.mp h
        obtain ⟨item, hitem, h⟩ := bind_ok_iff.mp h
        obtain ⟨items, rfl, hall⟩ := decodePairs_ok h
        exact ⟨(key, item) :: items, by rw [List.append_assoc]; rfl,
          .cons ⟨k, v, rfl, hkey, hitem⟩ hall⟩
      · cases h

theorem decodePairs_of_forall₂ {sub : Json → Except Error (Value T)} :
    ∀ {pairs : List Json} {items : List (Value T × Value T)}
      (result : List (Value T × Value T)), List.Forall₂ (PairOk sub) pairs items →
      (∀ e ∈ items, hashable L e.1 = true) →
      (result ++ items).Pairwise (fun a b => L.same a.1 b.1 = false) →
      decodePairs L sub pairs result = .ok (result ++ items)
  | _, _, result, .nil, _, _ => by rw [List.append_nil]; rfl
  | _, e :: items, result, .cons ⟨k, v, hp, hk, hv⟩ hall, hhash, hpair => by
      subst hp
      have hh : ¬(!hashable L e.1) = true := by simp [hhash e List.mem_cons_self]
      have hnew : ¬(result.any fun entry => L.same entry.1 e.1) = true := by
        rw [List.any_eq_true]
        rintro ⟨u, hu, hsame⟩
        have hfalse := (List.pairwise_append.mp hpair).2.2 u hu e List.mem_cons_self
        rw [hfalse] at hsame
        exact Bool.false_ne_true hsame
      have hrest := decodePairs_of_forall₂ (result ++ [e]) hall
        (fun a ha => hhash a (List.mem_cons_of_mem _ ha))
        (by rwa [List.append_assoc, List.singleton_append])
      rw [List.append_assoc, List.singleton_append] at hrest
      simp only [decodePairs, hk, hv, bind, Except.bind]
      rw [if_neg hh, if_neg hnew]
      exact hrest

end Containers

/-! ## All values -/

section RoundTrip

variable {L} {f : Json → Json} (hf : Reading f)

/-- What the round trip says of values with `n` levels left. -/
def RoundTrips (L : Library T) (f : Json → Json) (n : Nat) : Prop :=
  ∀ v j, Wellformed L v → encodeAt L n v = .ok j →
    (decodeAt L n (f j) = .ok v ↔ ∀ u, Within u v → Faithful L u)

theorem Wellformed.child {v c : Value T} (h : Wellformed L v) (hc : c ∈ v.children) :
    Wellformed L c := fun u hu => h u (.child hc hu)

/-- The items of a sequence come back exactly when each does. -/
theorem items_iff {n : Nat} (ih : RoundTrips L f n) {items : List (Value T)}
    {encoded : List Json} (henc : items.mapM (encodeAt L n) = .ok encoded)
    (hw : ∀ v ∈ items, Wellformed L v) :
    (encoded.map f).mapM (decodeAt L n) = .ok items ↔
      ∀ v ∈ items, ∀ u, Within u v → Faithful L u := by
  rw [mapM_ok_iff, List.forall₂_map_left_iff]
  have hall := mapM_ok_iff.mp henc
  clear henc
  induction hall with
  | nil => simp
  | @cons v j vs js hy _ ihall =>
      have hv := ih v j (hw v List.mem_cons_self) hy
      have hvs := ihall fun u hu => hw u (List.mem_cons_of_mem _ hu)
      rw [List.forall₂_cons, List.forall_mem_cons]
      exact and_congr hv hvs

/-- The items of a dict come back exactly when each key and each item does. -/
theorem pairs_iff (hf : Reading f) {n : Nat} (ih : RoundTrips L f n)
    {items : List (Value T × Value T)} {pairs : List Json}
    (henc : items.mapM (encodePair (encodeAt L n)) = .ok pairs)
    (hw : ∀ e ∈ items, Wellformed L e.1 ∧ Wellformed L e.2) :
    List.Forall₂ (PairOk (decodeAt L n)) (pairs.map f) items ↔
      ∀ e ∈ items, (∀ u, Within u e.1 → Faithful L u) ∧ ∀ u, Within u e.2 → Faithful L u := by
  rw [List.forall₂_map_left_iff]
  have hall := mapM_ok_iff.mp henc
  clear henc
  induction hall with
  | nil => simp
  | @cons e pair es ps hy _ ihall =>
      obtain ⟨k, hk, hy⟩ := bind_ok_iff.mp hy
      obtain ⟨v, hv, hpair⟩ := bind_ok_iff.mp hy
      cases hpair
      have hw₁ := hw e List.mem_cons_self
      have hes := ihall fun a ha => hw a (List.mem_cons_of_mem _ ha)
      have hpair : PairOk (decodeAt L n) (f (.arr [k, v])) e ↔
          decodeAt L n (f k) = .ok e.1 ∧ decodeAt L n (f v) = .ok e.2 := by
        rw [hf.arr]
        constructor
        · rintro ⟨k', v', heq, hk', hv'⟩
          cases heq
          exact ⟨hk', hv'⟩
        · rintro ⟨hk', hv'⟩
          exact ⟨_, _, rfl, hk', hv'⟩
      rw [List.forall₂_cons, List.forall_mem_cons, hpair, ih _ _ hw₁.1 hk, ih _ _ hw₁.2 hv]
      exact and_congr Iff.rfl hes

theorem encodeItems_ok {n : Nat} {kind : String} {items : List (Value T)} {j : Json}
    (h : encodeItems (encodeAt L n) kind items = .ok j) :
    ∃ encoded, items.mapM (encodeAt L n) = .ok encoded ∧
      encoded.length = items.length ∧ encoded.length ≤ maxContainerItems ∧
      j = form kind [("items", .arr encoded)] := by
  obtain ⟨_, hsize, h⟩ := bind_ok_iff.mp h
  obtain ⟨encoded, hencoded, hj⟩ := bind_ok_iff.mp h
  have hlen := length_mapM hencoded
  have hle : items.length ≤ maxContainerItems := not_lt.mp (check_ok_iff.mp hsize).1
  exact ⟨encoded, hencoded, hlen, hlen ▸ hle, (Except.ok.inj hj).symm⟩

theorem encodeDict_ok {n : Nat} {items : List (Value T × Value T)} {j : Json}
    (h : encodeDict (encodeAt L n) items = .ok j) :
    ∃ pairs, items.mapM (encodePair (encodeAt L n)) = .ok pairs ∧
      pairs.length ≤ maxContainerItems ∧ j = form "dict" [("items", .arr pairs)] := by
  obtain ⟨_, hsize, h⟩ := bind_ok_iff.mp h
  obtain ⟨pairs, hpairs, hj⟩ := bind_ok_iff.mp h
  have hle : items.length ≤ maxContainerItems := not_lt.mp (check_ok_iff.mp hsize).1
  exact ⟨pairs, hpairs, (length_mapM hpairs).symm ▸ hle, (Except.ok.inj hj).symm⟩

include hf

theorem decode_items (n : Nat) {kind : String} (encoded : List Json)
    {r : Except Error (Value T)}
    (h : ∀ ms, field ms "items" = .arr (encoded.map f) →
      (∀ label, requireExactKeys ms ["kind", "items"] label = .ok ()) →
      decodeKind L (decodeAt L n) ms kind = r) :
    decodeAt L (n + 1) (f (form kind [("items", .arr encoded)])) = r := by
  obtain ⟨ms, hms, hfield, hkeys⟩ :=
    decodeAt_form (L := L) hf n kind [("items", .arr encoded)] ["items"] rfl (by decide)
  rw [hms]
  exact h ms ((hfield "items" (by decide)).trans (hf.arr encoded))
    fun label => hkeys _ label (.refl _)

/-- A list or a tuple comes back exactly when its items do. -/
theorem decode_sequence_iff {n : Nat} {kind : String} {items : List (Value T)} {j : Json}
    {make : List (Value T) → Value T} (hmake : Function.Injective make)
    (hkind : ∀ ms, (∀ label, requireExactKeys ms ["kind", "items"] label = .ok ()) →
      decodeKind L (decodeAt L n) ms kind =
        (decodeItems (decodeAt L n) kind (field ms "items")).map make)
    (ih : RoundTrips L f n) (hw : ∀ v ∈ items, Wellformed L v)
    (h : encodeItems (encodeAt L n) kind items = .ok j) :
    decodeAt L (n + 1) (f j) = .ok (make items) ↔
      ∀ v ∈ items, ∀ u, Within u v → Faithful L u := by
  obtain ⟨encoded, hencoded, hlen, hsize, rfl⟩ := encodeItems_ok h
  have hdecode : decodeAt L (n + 1) (f (form kind [("items", .arr encoded)])) =
      ((encoded.map f).mapM (decodeAt L n)).map make := by
    refine decode_items hf n encoded fun ms hfield hkeys => ?_
    have hcheck : checkContainerSize (encoded.map f).length ("checkpoint metadata " ++ kind) =
        .ok () := if_neg (by rw [List.length_map]; exact not_lt.mpr hsize)
    rw [hkind ms hkeys, hfield, decodeItems, hcheck]
    rfl
  rw [hdecode, ← items_iff ih hencoded hw]
  cases hrun : (encoded.map f).mapM (decodeAt L n) with
  | error e => simp [Except.map]
  | ok vs => simp [Except.map, hmake.eq_iff]

/-- A set or a frozenset comes back exactly when its items do. -/
theorem decode_set_iff {n : Nat} {kind : String} {items : List (Value T)} {j : Json}
    {make : List (Value T) → Value T} (hmake : Function.Injective make)
    (hkind : ∀ ms, (∀ label, requireExactKeys ms ["kind", "items"] label = .ok ()) →
      decodeKind L (decodeAt L n) ms kind =
        (decodeSet L (decodeAt L n) kind (field ms "items")).map make)
    (ih : RoundTrips L f n) (hw : ∀ v ∈ items, Wellformed L v)
    (hhash : ∀ v ∈ items, hashable L v = true)
    (hpair : items.Pairwise fun a b => L.same a b = false)
    (h : encodeItems (encodeAt L n) kind items = .ok j) :
    decodeAt L (n + 1) (f j) = .ok (make items) ↔
      ∀ v ∈ items, ∀ u, Within u v → Faithful L u := by
  obtain ⟨encoded, hencoded, hlen, hsize, rfl⟩ := encodeItems_ok h
  have hdecode : decodeAt L (n + 1) (f (form kind [("items", .arr encoded)])) =
      (decodeSet L (decodeAt L n) kind (.arr (encoded.map f))).map make :=
    decode_items hf n encoded fun ms hfield hkeys => by rw [hkind ms hkeys, hfield]
  rw [hdecode, ← items_iff ih hencoded hw,
    ← decodeSet_ok_iff (by rw [List.length_map, hlen]) hhash hpair
      (by rw [List.length_map]; exact hsize)]
  cases hrun : decodeSet L (decodeAt L n) kind (.arr (encoded.map f)) with
  | error e => simp [Except.map]
  | ok vs => simp [Except.map, hmake.eq_iff]

/-- A dict comes back exactly when its keys and items do. -/
theorem decode_dict_iff {n : Nat} {items : List (Value T × Value T)} {j : Json}
    (ih : RoundTrips L f n) (hw : Wellformed L (.dict items))
    (h : encodeDict (encodeAt L n) items = .ok j) :
    decodeAt L (n + 1) (f j) = .ok (.dict items) ↔
      ∀ e ∈ items, (∀ u, Within u e.1 → Faithful L u) ∧ ∀ u, Within u e.2 → Faithful L u := by
  obtain ⟨pairs, hpairs, hsize, rfl⟩ := encodeDict_ok h
  have hchild : ∀ e ∈ items, Wellformed L e.1 ∧ Wellformed L e.2 := by
    intro e he
    have hmem : ∀ c ∈ [e.1, e.2], c ∈ (Value.dict items).children := fun c hc =>
      List.mem_flatMap.mpr ⟨e, he, hc⟩
    exact ⟨hw.child (hmem _ List.mem_cons_self),
      hw.child (hmem _ (List.mem_cons_of_mem _ List.mem_cons_self))⟩
  have hcheck : checkContainerSize (pairs.map f).length "checkpoint metadata dict" = .ok () :=
    if_neg (by rw [List.length_map]; exact not_lt.mpr hsize)
  have hdecode : decodeAt L (n + 1) (f (form "dict" [("items", .arr pairs)])) =
      (decodePairs L (decodeAt L n) (pairs.map f) []).map .dict := by
    refine decode_items hf n pairs fun ms hfield hkeys => ?_
    simp only [decodeKind, hkeys, hfield, decodeDict, hcheck, bind, Except.bind]
    rfl
  rw [hdecode, ← pairs_iff hf ih hpairs hchild]
  constructor
  · intro hrun
    cases hresult : decodePairs L (decodeAt L n) (pairs.map f) [] with
    | error e => rw [hresult] at hrun; cases hrun
    | ok r =>
        rw [hresult] at hrun
        obtain ⟨items', hr, hall⟩ := decodePairs_ok hresult
        cases hrun
        exact hr ▸ hall
  · intro hall
    obtain ⟨hhash, hpair⟩ := hw _ .self
    rw [decodePairs_of_forall₂ [] hall hhash hpair]
    rfl

/-- **The round trip at every depth**, of a form and of what is read of its text. -/
theorem roundTrips (hL : L.Documented) : ∀ n, RoundTrips L f n
  | 0, v, j, _, h => by cases h
  | n + 1, v, j, hw, h => by
      have ih := roundTrips hL n
      have hchild : ∀ c ∈ v.children, Wellformed L c := fun c hc => hw.child hc
      have hself : Distinct L v := hw v .self
      cases v with
      | none =>
          cases h
          exact iff_of_true (decode_none hf n) ((forall_within_leaf rfl).mpr trivial)
      | bool b =>
          cases h
          exact iff_of_true (decode_bool hf n b) ((forall_within_leaf rfl).mpr trivial)
      | int m =>
          cases h
          exact iff_of_true (decode_int hf n m) ((forall_within_leaf rfl).mpr trivial)
      | float x =>
          cases h
          exact iff_of_true (decode_float hf hL n x) ((forall_within_leaf rfl).mpr trivial)
      | complex x y =>
          cases h
          exact iff_of_true (decode_complex hf hL n x y) ((forall_within_leaf rfl).mpr trivial)
      | str t =>
          cases h
          exact iff_of_true (decode_str hf n t) ((forall_within_leaf rfl).mpr trivial)
      | bytes data =>
          cases h
          exact iff_of_true (decode_bytes hf n data) ((forall_within_leaf rfl).mpr trivial)
      | bytearray data =>
          cases h
          exact iff_of_true (decode_bytearray hf n data) ((forall_within_leaf rfl).mpr trivial)
      | size dimensions =>
          exact iff_of_true (decode_size hf h) ((forall_within_leaf rfl).mpr trivial)
      | dtype d =>
          exact iff_of_true (decode_dtype hf hL h) ((forall_within_leaf rfl).mpr trivial)
      | device d =>
          cases h
          exact iff_of_true (decode_device hf hL n d) ((forall_within_leaf rfl).mpr trivial)
      | tensor t =>
          rw [forall_within_leaf rfl]
          exact decode_tensor_iff hf hL h
      | array a =>
          rw [forall_within_leaf rfl]
          exact decode_array_iff hf h
      | scalar x =>
          rw [forall_within_leaf rfl]
          exact decode_scalar_iff hf h
      | dict items =>
          rw [forall_within_iff, decode_dict_iff hf ih hw h]
          simp only [Faithful, true_and, Value.children, List.forall_mem_flatMap,
            List.forall_mem_cons, List.not_mem_nil, false_imp_iff, implies_true, and_true]
      | subdict name items => cases h
      | list items =>
          have hitems : ∀ c ∈ items, Wellformed L c := hchild
          refine (decode_sequence_iff hf (fun _ _ => Value.list.inj) (fun ms hkeys => ?_) ih hitems
            h).trans ?_
          · simp only [decodeKind, hkeys, bind, Except.bind]
            cases decodeItems (decodeAt L n) "list" (field ms "items") <;> rfl
          · rw [forall_within_iff]
            exact (and_iff_right trivial).symm
      | tuple items =>
          have hitems : ∀ c ∈ items, Wellformed L c := hchild
          refine (decode_sequence_iff hf (fun _ _ => Value.tuple.inj) (fun ms hkeys => ?_) ih hitems
            h).trans ?_
          · simp only [decodeKind, hkeys, bind, Except.bind]
            cases decodeItems (decodeAt L n) "tuple" (field ms "items") <;> rfl
          · rw [forall_within_iff]
            exact (and_iff_right trivial).symm
      | set items =>
          have hitems : ∀ c ∈ items, Wellformed L c := hchild
          refine (decode_set_iff hf (fun _ _ => Value.set.inj) (fun ms hkeys => ?_) ih hitems
            hself.1 hself.2 h).trans ?_
          · simp only [decodeKind, hkeys, bind, Except.bind]
            cases decodeSet L (decodeAt L n) "set" (field ms "items") <;> rfl
          · rw [forall_within_iff]
            exact (and_iff_right trivial).symm
      | frozenset items =>
          have hitems : ∀ c ∈ items, Wellformed L c := hchild
          refine (decode_set_iff hf (fun _ _ => Value.frozenset.inj) (fun ms hkeys => ?_) ih hitems
            hself.1 hself.2 h).trans ?_
          · simp only [decodeKind, hkeys, bind, Except.bind]
            cases decodeSet L (decodeAt L n) "frozenset" (field ms "items") <;> rfl
          · rw [forall_within_iff]
            exact (and_iff_right trivial).symm
      | other o => cases h

end RoundTrip

/-- **Which values come back.**  Decoding the encoded value gives that value
exactly when every leaf in it is faithful. -/
theorem decode_encode_iff {L : Library T} (hL : L.Documented) {v : Value T} {j : Json}
    (hv : Wellformed L v) (h : encodeValue L v = .ok j) :
    decodeValue L j = .ok v ↔ ∀ u, Within u v → Faithful L u :=
  roundTrips reading_id hL levels v j hv h

/-! ## A small library

Two floats, `torch.float32` in host memory and `np.float64`. -/

def sampleTypes : Types where
  Float := Bool
  TorchDtype := Unit
  elementSize _ := 4
  Device := Unit
  deviceType _ := "cpu"
  cpu := ()
  NumpyDtype := Unit
  itemsize _ := 8
  Object := Empty
  typeName := Empty.elim

/-- The scalar of eight bytes. -/
def sampleElement (data : List UInt8) : NumpyScalar sampleTypes where
  exact := true
  dtype := ()
  data := if data.length = 8 then data else List.replicate 8 0
  sized := by
    split
    · assumption
    · exact List.length_replicate

def sampleLibrary : Library sampleTypes where
  floatText x := cond x "1.5" "0.5"
  readFloat l := l == "1.5"
  floatOfInt _ := none
  dtypeStr _ := "torch.float32"
  torchAttr name := if name = "float32" then some () else none
  allocates _ := true
  deviceStr _ := "cpu"
  parseDevice text := if text = "cpu" then some () else none
  hasobject _ := false
  structured _ := false
  typestr _ := "<f8"
  numpyDtype text := if text = "<f8" then some () else none
  element _ := sampleElement
  hashableScalar _ := true
  same a b :=
    match a, b with
    | .str s, .str t => s == t
    | .int m, .int n => m == n
    | _, _ => false

theorem sampleLibrary_documented : sampleLibrary.Documented where
  float_text x := by cases x <;> rfl
  dtype_name _ := ⟨"float32", rfl, by decide, by decide, rfl⟩
  dense_allocates _ _ := rfl
  device_text _ := rfl

/-- `np.array(x)` for a float64 `x`, of no dimension. -/
def zeroDimensional : NumpyArray sampleTypes where
  dtype := ()
  shape := []
  data := List.replicate 8 0
  sized := rfl

/-- `{"step": (3, 0.5)}`. -/
def sampleMetadata : Value sampleTypes :=
  .dict [(.str "step", .tuple [.int 3, .float false])]

/-- **The array of no dimension does not come back**: what is decoded has one. -/
theorem zeroDimensional_lost :
    ∃ (v : Value sampleTypes) (j : Json), Wellformed sampleLibrary v ∧
      encodeValue sampleLibrary v = .ok j ∧ decodeValue sampleLibrary j ≠ .ok v := by
  have hw : Wellformed sampleLibrary (.array zeroDimensional) :=
    (forall_within_leaf rfl).mpr trivial
  refine ⟨.array zeroDimensional, _, hw, rfl, fun hdecode => ?_⟩
  have hfaithful := (decode_array_iff reading_id rfl).mp hdecode
  exact hfaithful.1 rfl

theorem sampleMetadata_wellformed : Wellformed sampleLibrary sampleMetadata := by
  refine forall_within_iff.mpr ⟨⟨?_, List.pairwise_singleton _ _⟩, ?_⟩
  · exact List.forall_mem_singleton.mpr rfl
  · intro c hc
    rcases List.mem_pair.mp hc with rfl | rfl
    · exact (forall_within_leaf rfl).mpr trivial
    · refine forall_within_iff.mpr ⟨trivial, fun c hc => ?_⟩
      rcases List.mem_pair.mp hc with rfl | rfl <;> exact (forall_within_leaf rfl).mpr trivial

theorem decode_encode_sampleMetadata :
    ∃ j, encodeValue sampleLibrary sampleMetadata = .ok j ∧
      (decodeValue sampleLibrary j = .ok sampleMetadata ↔
        ∀ u, Within u sampleMetadata → Faithful sampleLibrary u) :=
  ⟨_, rfl, decode_encode_iff sampleLibrary_documented sampleMetadata_wellformed rfl⟩

end LmResiliency.Checkpointing.Codec
