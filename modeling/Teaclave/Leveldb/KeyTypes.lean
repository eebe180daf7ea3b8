/-
  Teaclave.Leveldb.KeyTypes
  ─────────────────────────
  **THE KEYS OF THE MEMTABLE.**

  `rusty_leveldb_sgx/src/key_types.rs`.  A memtable key is the length of
  the internal key (a varint), the user key, the tag (the sequence number
  shifted up a byte, the value type in the low byte, a fixed `u64`), then
  the length of the value and the value.  A `LookupKey` is the same
  without the value part.  `cmp_memtable_key` orders memtable keys by user
  key, and by sequence number the other way, newest first.

  Slices are read with `take` and `drop` (`slice`); on the keys laid out
  here every slice is in range.

    • `mkey_user_layout`, `mkey_tag_layout`: the comparator reads back the
      user key and the tag of every key laid out so.
    • `parse_tag_build`, `parse_tag_lookup`: below `2 ^ 56`, the tag gives
      back the value type and the sequence number.
    • `cmp_memtable_key_eq`: the comparator is the lexicographic
      combination of the user comparator on user keys and the reversed
      order of sequence numbers; so it is a total preorder whenever the
      user comparator is, and two keys are equal under it only with equal
      user keys and sequence numbers.
    • `parse_memtable_key_build`: `parse_memtable_key` reads back every
      part of a key `build_memtable_key` built.
-/
import Teaclave.Lib.VarInt
import Teaclave.Lib.FixedInt
import Teaclave.Lib.RustStd
import Teaclave.Lib.SkipList

namespace Teaclave.Leveldb

open Teaclave.Lib

/-! ## §1. Keys. -/

/-- `ValueType`. -/
inductive ValueType
  | TypeDeletion
  | TypeValue
  deriving DecidableEq, Repr

/-- `t as u64`. -/
def ValueType.code : ValueType → UInt64
  | .TypeDeletion => 0
  | .TypeValue => 1

/-- `U64_SPACE`. -/
def U64_SPACE : Nat := 8

/-- `LookupKey`: a memtable key with no value part, and where its internal
    key starts. -/
structure LookupKey where
  key : List UInt8
  key_offset : Nat
  deriving DecidableEq, Repr

/-- `LookupKey::new_full`. -/
def LookupKey.new_full (k : List UInt8) (s : UInt64) (t : ValueType) : LookupKey :=
  let internal_keylen := k.length + U64_SPACE
  { key := encode_var internal_keylen ++ k ++ encode_fixed 8 (s <<< 8 ||| t.code).toNat
    key_offset := required_space internal_keylen }

/-- `LookupKey::new`: a key to look up at sequence number `s`. -/
def LookupKey.new (k : List UInt8) (s : UInt64) : LookupKey := LookupKey.new_full k s .TypeValue

/-- `LookupKey::memtable_key`. -/
def LookupKey.memtable_key (lk : LookupKey) : List UInt8 := lk.key

/-- `LookupKey::user_key`. -/
def LookupKey.user_key (lk : LookupKey) : List UInt8 := slice lk.key lk.key_offset (lk.key.length - 8)

/-- `LookupKey::internal_key`. -/
def LookupKey.internal_key (lk : LookupKey) : List UInt8 := lk.key.drop lk.key_offset

/-- `parse_tag`: the value type in the low byte, the sequence number above. -/
def parse_tag (tag : UInt64) : ValueType × UInt64 :=
  let seq := tag >>> 8
  let typ := tag &&& 0xff
  match typ.toNat with
  | 0 => (.TypeDeletion, seq)
  | 1 => (.TypeValue, seq)
  | _ => (.TypeValue, seq)

/-- `build_memtable_key`: the buffer of `keysize + valsize` and the two
    varint lengths, written in full. -/
def build_memtable_key (key value : List UInt8) (t : ValueType) (seq : UInt64) : List UInt8 :=
  let keysize := key.length + U64_SPACE
  let valsize := value.length
  encode_var keysize ++ key ++ encode_fixed 8 (t.code ||| (seq <<< 8)).toNat ++ encode_var valsize ++ value

/-- `parse_memtable_key`: the user key's length and offset, the tag, and the
    value's length and offset; the tag and the value read as `0` when the
    key has nothing after the user key. -/
def parse_memtable_key (mkey : List UInt8) : Nat × Nat × UInt64 × Nat × Nat :=
  let (keylen, i) := decode_var mkey
  let keyoff := i
  let i := i + (keylen - 8)
  if mkey.length > i then
    let tag := (decode_fixed (slice mkey i (i + 8))).toUInt64
    let i := i + 8
    let (vallen, j) := decode_var (mkey.drop i)
    let i := i + j
    let valoff := i
    (keylen - 8, keyoff, tag, vallen, valoff)
  else (keylen - 8, keyoff, 0, 0, 0)

/-- `cmp_memtable_key`: the user keys under `ucmp`, then the sequence
    numbers, the greater first. -/
def cmp_memtable_key (ucmp : List UInt8 → List UInt8 → Ordering) (a b : List UInt8) : Ordering :=
  let (alen, aoff) := decode_var a
  let (blen, boff) := decode_var b
  let userkey_a := slice a aoff (aoff + alen - 8)
  let userkey_b := slice b boff (boff + blen - 8)
  match ucmp userkey_a userkey_b with
  | .lt => .lt
  | .gt => .gt
  | .eq =>
    let atag := (decode_fixed (slice a (aoff + alen - 8) (aoff + alen))).toUInt64
    let btag := (decode_fixed (slice b (boff + blen - 8) (boff + blen))).toUInt64
    let (_, aseq) := parse_tag atag
    let (_, bseq) := parse_tag btag
    compare bseq aseq

/-- The buffer `build_memtable_key` sizes is filled exactly: its
    `assert_eq!(writer.len(), 0)` holds. -/
theorem length_build_memtable_key (key value : List UInt8) (t : ValueType) (seq : UInt64) :
    (build_memtable_key key value t seq).length =
      (key.length + U64_SPACE) + value.length + required_space (key.length + U64_SPACE) +
        required_space value.length := by
  simp [build_memtable_key, required_space, U64_SPACE]
  omega

/-! ## §2. What the comparator reads. -/

/-- The user key `cmp_memtable_key` reads. -/
def mkey_user (a : List UInt8) : List UInt8 :=
  let (alen, aoff) := decode_var a
  slice a aoff (aoff + alen - 8)

/-- The tag `cmp_memtable_key` reads. -/
def mkey_tag (a : List UInt8) : UInt64 :=
  let (alen, aoff) := decode_var a
  (decode_fixed (slice a (aoff + alen - 8) (aoff + alen))).toUInt64

/-- The sequence number `cmp_memtable_key` reads. -/
def mkey_seq (a : List UInt8) : UInt64 := (parse_tag (mkey_tag a)).2

/-- **The comparator, read as a lexicographic combination**: user keys,
    then sequence numbers the other way. -/
theorem cmp_memtable_key_eq (ucmp : List UInt8 → List UInt8 → Ordering) (a b : List UInt8) :
    cmp_memtable_key ucmp a b =
      compareLex (fun a b => ucmp (mkey_user a) (mkey_user b)) (fun a b => compare (mkey_seq b) (mkey_seq a)) a b := by
  simp only [cmp_memtable_key, compareLex, mkey_user, mkey_seq, mkey_tag]
  cases ucmp _ _ <;> rfl

instance (ucmp : List UInt8 → List UInt8 → Ordering) [Std.TransCmp ucmp] :
    Std.TransCmp (cmp_memtable_key ucmp) := by
  have heq : cmp_memtable_key ucmp =
      compareLex (fun a b => ucmp (mkey_user a) (mkey_user b)) (fun a b => compare (mkey_seq b) (mkey_seq a)) :=
    funext₂ (cmp_memtable_key_eq ucmp)
  have := transCmp_comap ucmp mkey_user
  have := transCmp_comap (fun x y : UInt64 => compare y x) mkey_seq
  rw [heq]
  infer_instance

/-- Two keys are equal under the comparator only with equal user keys and
    sequence numbers. -/
theorem cmp_memtable_key_eq_eq {ucmp : List UInt8 → List UInt8 → Ordering} [Std.LawfulEqCmp ucmp]
    {a b : List UInt8} (h : cmp_memtable_key ucmp a b = .eq) :
    mkey_user a = mkey_user b ∧ mkey_seq a = mkey_seq b := by
  rw [cmp_memtable_key_eq, compareLex, Ordering.then_eq_eq] at h
  exact ⟨Std.LawfulEqCmp.eq_of_compare h.1, (Std.LawfulEqCmp.eq_of_compare h.2).symm⟩

/-! ## §3. Keys laid out by the writers. -/

section Layout

variable (k : List UInt8) (tag : Nat) (rest : List UInt8)

/-- The first varint of a key laid out so is the length of its internal
    key. -/
theorem decode_var_layout :
    decode_var (encode_var (k.length + U64_SPACE) ++ k ++ encode_fixed 8 tag ++ rest) =
      (k.length + U64_SPACE, required_space (k.length + U64_SPACE)) := by
  rw [List.append_assoc, List.append_assoc, decode_var_encode_var]
  rfl

theorem mkey_user_layout : mkey_user (encode_var (k.length + U64_SPACE) ++ k ++ encode_fixed 8 tag ++ rest) = k := by
  simp only [mkey_user, decode_var_layout]
  rw [show required_space (k.length + U64_SPACE) + (k.length + U64_SPACE) - 8 =
      (encode_var (k.length + U64_SPACE)).length + k.length by simp only [required_space, U64_SPACE]; omega,
    List.append_assoc _ (encode_fixed 8 tag)]
  exact slice_append_mid _ _ _

theorem mkey_tag_layout :
    mkey_tag (encode_var (k.length + U64_SPACE) ++ k ++ encode_fixed 8 tag ++ rest) = (tag % 256 ^ 8).toUInt64 := by
  simp only [mkey_tag, decode_var_layout]
  have hslice : slice (encode_var (k.length + U64_SPACE) ++ k ++ encode_fixed 8 tag ++ rest)
      (required_space (k.length + U64_SPACE) + (k.length + U64_SPACE) - 8)
      (required_space (k.length + U64_SPACE) + (k.length + U64_SPACE)) = encode_fixed 8 tag := by
    have h := slice_append_mid (encode_var (k.length + U64_SPACE) ++ k) (encode_fixed 8 tag) rest
    simp only [List.length_append, length_encode_fixed] at h
    rw [show required_space (k.length + U64_SPACE) + (k.length + U64_SPACE) - 8 =
        (encode_var (k.length + U64_SPACE)).length + k.length by simp only [required_space, U64_SPACE]; omega,
      show required_space (k.length + U64_SPACE) + (k.length + U64_SPACE) =
        (encode_var (k.length + U64_SPACE)).length + k.length + 8 by simp only [required_space, U64_SPACE]; omega]
    exact h
  rw [hslice, decode_encode_fixed]

end Layout

/-- `build_memtable_key` lays its key out so. -/
theorem build_memtable_key_layout (key value : List UInt8) (t : ValueType) (seq : UInt64) :
    build_memtable_key key value t seq =
      encode_var (key.length + U64_SPACE) ++ key ++ encode_fixed 8 (t.code ||| (seq <<< 8)).toNat ++
        (encode_var value.length ++ value) := by
  simp [build_memtable_key]

/-- … and so does `LookupKey::new_full`, with nothing after the tag. -/
theorem lookup_key_layout (k : List UInt8) (s : UInt64) (t : ValueType) :
    (LookupKey.new_full k s t).memtable_key =
      encode_var (k.length + U64_SPACE) ++ k ++ encode_fixed 8 (s <<< 8 ||| t.code).toNat ++ [] := by
  simp [LookupKey.new_full, LookupKey.memtable_key]

/-! ## §4. Tags. -/

theorem toNat_code_lt (t : ValueType) : t.code.toNat < 2 ^ 8 := by
  cases t <;> decide

/-- Below `2 ^ 56`, the sequence number shifted up a byte leaves the low
    byte to the type. -/
theorem toNat_tag (t : ValueType) {seq : UInt64} (h : seq.toNat < 2 ^ 56) :
    (t.code ||| (seq <<< 8)).toNat = seq.toNat * 256 + t.code.toNat := by
  have hshift : (seq <<< 8).toNat = seq.toNat * 256 := by
    rw [UInt64.toNat_shiftLeft, show (8 : UInt64).toNat % 64 = 8 from rfl, Nat.shiftLeft_eq]
    exact Nat.mod_eq_of_lt (by omega)
  rw [UInt64.toNat_or, hshift, Nat.lor_comm, show seq.toNat * 256 = seq.toNat <<< 8 by rw [Nat.shiftLeft_eq],
    ← Nat.shiftLeft_add_eq_or_of_lt (toNat_code_lt t), Nat.shiftLeft_eq]

/-- The low byte of a tag is its type. -/
theorem tag_and_ff (t : ValueType) {seq : UInt64} (h : seq.toNat < 2 ^ 56) :
    (t.code ||| (seq <<< 8)) &&& 0xff = t.code := by
  have hc := toNat_code_lt t
  apply UInt64.toNat_inj.mp
  rw [UInt64.toNat_and, show (0xff : UInt64).toNat = 2 ^ 8 - 1 from rfl, Nat.and_two_pow_sub_one_eq_mod,
    toNat_tag t h]
  omega

/-- `parse_tag` reads back a tag from its value: the type in the low byte,
    the sequence number above it. -/
theorem parse_tag_of_toNat {tag : UInt64} {t : ValueType} {seq : UInt64} (h : tag.toNat = seq.toNat * 256 + t.code.toNat) :
    parse_tag tag = (t, seq) := by
  have hc := toNat_code_lt t
  have hseq : tag >>> 8 = seq := by
    apply UInt64.toNat_inj.mp
    rw [UInt64.toNat_shiftRight, show (8 : UInt64).toNat % 64 = 8 from rfl, Nat.shiftRight_eq_div_pow, h]
    omega
  have htyp : (tag &&& 0xff).toNat = t.code.toNat := by
    rw [UInt64.toNat_and, show (0xff : UInt64).toNat = 2 ^ 8 - 1 from rfl, Nat.and_two_pow_sub_one_eq_mod, h]
    omega
  simp only [parse_tag, htyp, hseq]
  cases t <;> rfl

theorem parse_tag_build (t : ValueType) {seq : UInt64} (h : seq.toNat < 2 ^ 56) :
    parse_tag (t.code ||| (seq <<< 8)) = (t, seq) :=
  parse_tag_of_toNat (toNat_tag t h)

theorem parse_tag_lookup (t : ValueType) {s : UInt64} (h : s.toNat < 2 ^ 56) :
    parse_tag (s <<< 8 ||| t.code) = (t, s) := by
  rw [UInt64.or_comm]
  exact parse_tag_build t h

/-- Eight bytes hold a `u64`. -/
theorem toUInt64_toNat_mod (x : UInt64) : (x.toNat % 256 ^ 8).toUInt64 = x := by
  have hx : x.toNat < 256 ^ 8 := by
    have := x.toNat_lt
    norm_num at this ⊢
    exact this
  rw [Nat.mod_eq_of_lt hx]
  simp

/-- The sequence number the comparator reads of a built key. -/
theorem mkey_seq_build (key value : List UInt8) (t : ValueType) {seq : UInt64} (h : seq.toNat < 2 ^ 56) :
    mkey_seq (build_memtable_key key value t seq) = seq := by
  rw [mkey_seq, build_memtable_key_layout, mkey_tag_layout, toUInt64_toNat_mod, parse_tag_build t h]

theorem mkey_user_build (key value : List UInt8) (t : ValueType) (seq : UInt64) :
    mkey_user (build_memtable_key key value t seq) = key := by
  rw [build_memtable_key_layout, mkey_user_layout]

theorem mkey_seq_lookup (k : List UInt8) {s : UInt64} (h : s.toNat < 2 ^ 56) :
    mkey_seq (LookupKey.new k s).memtable_key = s := by
  rw [LookupKey.new, mkey_seq, lookup_key_layout, mkey_tag_layout, toUInt64_toNat_mod, parse_tag_lookup .TypeValue h]

theorem mkey_user_lookup (k : List UInt8) (s : UInt64) : mkey_user (LookupKey.new k s).memtable_key = k := by
  rw [LookupKey.new, lookup_key_layout, mkey_user_layout]

theorem user_key_lookup (k : List UInt8) (s : UInt64) : (LookupKey.new k s).user_key = k := by
  have h := slice_append_mid (encode_var (k.length + U64_SPACE)) k (encode_fixed 8 (s <<< 8 ||| ValueType.TypeValue.code).toNat)
  simp only [LookupKey.user_key, LookupKey.new, LookupKey.new_full, List.length_append, length_encode_fixed]
  rw [show (encode_var (k.length + U64_SPACE)).length + k.length + 8 - 8 =
      (encode_var (k.length + U64_SPACE)).length + k.length by omega]
  exact h

/-! ## §5. `parse_memtable_key`. -/

/-- **`parse_memtable_key` reads back a built key**: the user key's length
    and offset, the tag, the value's length and offset. -/
theorem parse_memtable_key_build (key value : List UInt8) (t : ValueType) (seq : UInt64) :
    parse_memtable_key (build_memtable_key key value t seq) =
      (key.length, required_space (key.length + U64_SPACE), t.code ||| (seq <<< 8), value.length,
        required_space (key.length + U64_SPACE) + key.length + 8 + required_space value.length) := by
  -- the parts of the key, and where each starts
  have hlayout := build_memtable_key_layout key value t seq
  set E := encode_var (key.length + U64_SPACE) with hE
  set F := encode_fixed 8 (t.code ||| (seq <<< 8)).toNat with hF
  have hFlen : F.length = 8 := length_encode_fixed 8 _
  have hkey : decode_var (build_memtable_key key value t seq) = (key.length + 8, E.length) := by
    rw [hlayout]
    exact decode_var_layout key _ _
  have htag : slice (build_memtable_key key value t seq) (E.length + key.length) (E.length + key.length + 8) = F := by
    have h := slice_append_mid (E ++ key) F (encode_var value.length ++ value)
    simp only [List.length_append, hFlen] at h
    rw [hlayout]
    exact h
  have hval : (build_memtable_key key value t seq).drop (E.length + key.length + 8) = encode_var value.length ++ value := by
    rw [hlayout, show E.length + key.length + 8 = (E ++ key ++ F).length by simp only [List.length_append, hFlen], List.drop_left]
  have hlen : E.length + key.length < (build_memtable_key key value t seq).length := by
    rw [hlayout]
    simp only [List.length_append, hFlen]
    have := List.length_pos_iff.mpr (encode_var_ne_nil value.length)
    omega
  simp only [parse_memtable_key, hkey, Nat.add_sub_cancel]
  rw [if_pos hlen, htag, hval, decode_var_encode_var, hF, decode_encode_fixed, toUInt64_toNat_mod]
  rfl

/-- The user key `get` reads out of a built key. -/
theorem slice_user_build (key value : List UInt8) (t : ValueType) (seq : UInt64) :
    slice (build_memtable_key key value t seq) (required_space (key.length + U64_SPACE))
      (required_space (key.length + U64_SPACE) + key.length) = key := by
  have h := slice_append_mid (encode_var (key.length + U64_SPACE)) key
    (encode_fixed 8 (t.code ||| (seq <<< 8)).toNat ++ (encode_var value.length ++ value))
  simp only [List.append_assoc] at h
  simpa [build_memtable_key, required_space] using h

/-- The value `get` reads out of a built key. -/
theorem slice_value_build (key value : List UInt8) (t : ValueType) (seq : UInt64) :
    slice (build_memtable_key key value t seq)
      (required_space (key.length + U64_SPACE) + key.length + 8 + required_space value.length)
      (required_space (key.length + U64_SPACE) + key.length + 8 + required_space value.length + value.length) =
      value := by
  have h := slice_append_mid (encode_var (key.length + U64_SPACE) ++ key ++
    encode_fixed 8 (t.code ||| (seq <<< 8)).toNat ++ encode_var value.length) value []
  simp only [List.append_nil, List.length_append, length_encode_fixed] at h
  simpa [build_memtable_key, required_space] using h

end Teaclave.Leveldb
