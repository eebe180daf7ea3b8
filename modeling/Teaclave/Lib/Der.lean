/-
  Teaclave.Lib.Der
  ────────────────
  **ASN.1 TYPES AS COMBINATORS OF DER CODECS.**

  A DER value is a frame: identifier and length octets around its contents.
  The framing and the contents codecs of the primitive types are given
  (`Framing`, `Contents`), each writer with the reader that inverts it; the
  constructed types are built from them by four combinators, as a
  type-level list of `Cons`/`Nil` cells inside a `Sequence`, a `Set` or an
  explicit `Tagged` frame.

  Every codec carries its own round trip (`Asn1Ty.load_dump`): reading what
  was dumped, followed by anything, gives the value back and stops where the
  dump ended.  Each combinator proves it from its parts, so a layout built
  from them needs no proof of its own.

    • `parse_der_dump`: a whole input that is a dump parses back.
    • `Framing.escaped`, `Contents.of_encodable`: the laws are consistent;
      a framing and contents codecs that meet them.

  A `Set`'s reader picks each element by its tag; the elements are read
  here in the order they were written, which is the same for sets whose
  elements have distinct tags.
-/
import Mathlib

namespace Teaclave.Lib

/-! ## §1. Tags and the primitives. -/

/-- The class of a tag. -/
inductive TagClass where
  | Universal
  | Application
  | ContextSpecific
  | Private
  deriving DecidableEq, Repr

/-- An ASN.1 tag. -/
structure Tag where
  tag_class : TagClass
  tag_number : Nat
  deriving DecidableEq, Repr

/-- The universal tags of the primitive and constructed types. -/
def TAG_INTEGER : Tag := ⟨.Universal, 2⟩
def TAG_BITSTRING : Tag := ⟨.Universal, 3⟩
def TAG_OCTETSTRING : Tag := ⟨.Universal, 4⟩
def TAG_OID : Tag := ⟨.Universal, 6⟩
def TAG_UTF8STRING : Tag := ⟨.Universal, 12⟩
def TAG_SEQUENCE : Tag := ⟨.Universal, 16⟩
def TAG_SET : Tag := ⟨.Universal, 17⟩
def TAG_UTCTIME : Tag := ⟨.Universal, 23⟩

/-- A context-specific tag, `[n]`. -/
def context_tag (tnum : Nat) : Tag := ⟨.ContextSpecific, tnum⟩

/-- How a frame is written and read back: reading a frame with the tag it
    was written with gives its contents and what follows it. -/
structure Framing where
  write : Tag → List UInt8 → List UInt8
  read : Tag → List UInt8 → Option (List UInt8 × List UInt8)
  read_write : ∀ t c rest, read t (write t c ++ rest) = some (c, rest)

/-- A codec for the contents of a primitive value. -/
structure Contents (V : Type) where
  encode : V → List UInt8
  decode : List UInt8 → Option V
  decode_encode : ∀ v, decode (encode v) = some v

/-! ## §2. Codecs and their combinators. -/

/-- An ASN.1 type (`Asn1Ty`): its tag and the codec of its values. -/
structure Asn1Ty (V : Type) where
  tag : Tag
  dump : V → List UInt8
  load : List UInt8 → Option (V × List UInt8)
  load_dump : ∀ v rest, load (dump v ++ rest) = some (v, rest)

/-- The elements of a constructed value read one after another
    (`Asn1ConsTy`). -/
structure Asn1ConsTy (V : Type) where
  dump : V → List UInt8
  load : List UInt8 → Option (V × List UInt8)
  load_dump : ∀ v rest, load (dump v ++ rest) = some (v, rest)

section Combinators

variable (F : Framing) {U V : Type}

/-- Read a frame and its contents with `inner`, which must read them to
    the end. -/
def read_whole (t : Tag) (inner : List UInt8 → Option (V × List UInt8))
    (bytes : List UInt8) : Option (V × List UInt8) :=
  match F.read t bytes with
  | none => none
  | some (contents, rest) =>
      match inner contents with
      | some (v, []) => some (v, rest)
      | _ => none

theorem read_whole_write {t : Tag} {inner : List UInt8 → Option (V × List UInt8)}
    {contents : List UInt8} {v : V} (h : inner contents = some (v, [])) (rest : List UInt8) :
    read_whole F t inner (F.write t contents ++ rest) = some (v, rest) := by
  simp only [read_whole, F.read_write, h]

/-- A primitive type: a frame around its contents. -/
def Asn1Ty.prim (t : Tag) (c : Contents V) : Asn1Ty V where
  tag := t
  dump v := F.write t (c.encode v)
  load bytes :=
    match F.read t bytes with
    | none => none
    | some (contents, rest) => (c.decode contents).map (·, rest)
  load_dump v rest := by
    simp only [F.read_write, c.decode_encode, Option.map_some]

/-- A frame of tag `t` around elements read one after another. -/
def Asn1Ty.framed (t : Tag) (c : Asn1ConsTy V) : Asn1Ty V where
  tag := t
  dump v := F.write t (c.dump v)
  load := read_whole F t c.load
  load_dump v rest := by
    have h := c.load_dump v []
    rw [List.append_nil] at h
    exact read_whole_write F h rest

/-- `Nil`: no more elements. -/
def Asn1ConsTy.nil : Asn1ConsTy Unit where
  dump _ := []
  load bytes := some ((), bytes)
  load_dump _ _ := rfl

/-- `Cons<U, V>`: one element, then the rest. -/
def Asn1ConsTy.cons (u : Asn1Ty U) (v : Asn1ConsTy V) : Asn1ConsTy (U × V) where
  dump x := u.dump x.1 ++ v.dump x.2
  load bytes :=
    match u.load bytes with
    | none => none
    | some (a, rest) => (v.load rest).map fun (b, rest') => ((a, b), rest')
  load_dump x rest := by
    simp only [List.append_assoc, u.load_dump, v.load_dump, Option.map_some]

/-- One element as the whole of a frame's contents. -/
def Asn1ConsTy.single (u : Asn1Ty U) : Asn1ConsTy U where
  dump := u.dump
  load := u.load
  load_dump := u.load_dump

namespace Asn1

/-- `Tagged<T, S>`: the explicit frame `[T]` around one value of `S`. -/
def Tagged (t : Tag) (s : Asn1Ty V) : Asn1Ty V := Asn1Ty.framed F t (.single s)

/-- `Sequence<U, V>`. -/
def Sequence (u : Asn1Ty U) (v : Asn1ConsTy V) : Asn1Ty (U × V) :=
  Asn1Ty.framed F TAG_SEQUENCE (.cons u v)

/-- `Set<U, V>`. -/
def Set (u : Asn1Ty U) (v : Asn1ConsTy V) : Asn1Ty (U × V) :=
  Asn1Ty.framed F TAG_SET (.cons u v)

end Asn1

/-- `parse_der`: the value of a whole input. -/
def parse_der (ty : Asn1Ty V) (bytes : List UInt8) : Option V :=
  match ty.load bytes with
  | some (v, []) => some v
  | _ => none

/-- **A dump parses back.** -/
theorem parse_der_dump (ty : Asn1Ty V) (v : V) : parse_der ty (ty.dump v) = some v := by
  have h := ty.load_dump v []
  rw [List.append_nil] at h
  simp only [parse_der, h]

end Combinators

/-! ## §3. The laws can be met.

Not DER: a framing that escapes each byte and a contents codec through
`Encodable`, enough to show that the assumed laws hold of something. -/

/-- Each byte written as `1, b`, the whole closed by `0`. -/
def escape : List UInt8 → List UInt8
  | [] => [0]
  | b :: c => 1 :: b :: escape c

/-- Escaped bytes read back, with what follows them. -/
def unescape : List UInt8 → Option (List UInt8 × List UInt8)
  | 0 :: rest => some ([], rest)
  | 1 :: b :: rest => (unescape rest).map fun (c, r) => (b :: c, r)
  | _ => none

theorem unescape_escape (c rest : List UInt8) : unescape (escape c ++ rest) = some (c, rest) := by
  induction c with
  | nil => rfl
  | cons b c ih =>
      show (unescape (escape c ++ rest)).map (fun (c, r) => (b :: c, r)) = some (b :: c, rest)
      rw [ih, Option.map_some]

/-- A tag's bytes in the escaped framing. -/
def tag_code (t : Tag) : List UInt8 :=
  let class_code : UInt8 :=
    match t.tag_class with
    | .Universal => 0
    | .Application => 1
    | .ContextSpecific => 2
    | .Private => 3
  class_code :: List.replicate t.tag_number 0

/-- The escaped framing: the tag's bytes and the contents, each escaped. -/
def Framing.escaped : Framing where
  write t c := escape (tag_code t) ++ escape c
  read t bytes :=
    match unescape bytes with
    | some (code, rest) => if code = tag_code t then unescape rest else none
    | none => none
  read_write t c rest := by
    simp only [List.append_assoc, unescape_escape, if_true]

/-- Contents through an encoding into the natural numbers, in unary. -/
def Contents.of_encodable (V : Type) [Encodable V] : Contents V where
  encode v := List.replicate (Encodable.encode v) 0
  decode c := if c.all (· == 0) then Encodable.decode c.length else none
  decode_encode v := by simp

/-- Contents carried over along a map with a left inverse. -/
def Contents.map {V W : Type} (c : Contents W) (f : V → W) (g : W → V)
    (hgf : ∀ v, g (f v) = v) : Contents V where
  encode v := c.encode (f v)
  decode bytes := (c.decode bytes).map g
  decode_encode v := by simp [c.decode_encode, hgf]

end Teaclave.Lib
