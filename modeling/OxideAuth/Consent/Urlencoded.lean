import Mathlib.Data.List.Basic

/-!
# Form-urlencoding, byte for byte

`consent_solicitor` writes its consent query with `serde_urlencoded::to_string`, and
the `/consent` request's query is read back with `serde_urlencoded::from_str`. Both go
through the `form_urlencoded` crate. This module models its serializer
(`byte_serialize`, `Serializer::append_pair`) and its parser (`parse`, with
`replace_plus` and `percent_decode`) on bytes, a Rust string being its UTF-8 bytes.

* `decode_byteSerialize`: decoding a serialized component gives it back.
* `byteSerialize_serialized`: a serialized component holds only unreserved bytes, `+`
  and `%`, so never an `&`, `=`, `?` or `#`.
* `parse_toString`: `parse` inverts `to_string` on every list of pairs.

`parse` hands its decoded bytes to `decode_utf8_lossy`, which returns the bytes of a
valid string unchanged; the model stops at the bytes.
-/

namespace OxideAuth.Consent

/-- A byte string. -/
abbrev Bytes := List UInt8

/-- The UTF-8 bytes of a string, as `str::as_bytes` gives them. -/
def utf8 (s : String) : Bytes := s.data.flatMap String.utf8EncodeChar

/-- `byte_serialized_unchanged`: `*`, `-`, `.`, digits, letters and `_` are written as
they are. -/
def byteSerializedUnchanged (b : UInt8) : Bool :=
  b == 42 || b == 45 || b == 46 || (48 ≤ b && b ≤ 57) || (65 ≤ b && b ≤ 90) || b == 95 ||
    (97 ≤ b && b ≤ 122)

/-- A digit of `percent_encode_byte`'s upper-case hexadecimal table. -/
def hexDigit (d : Nat) : UInt8 := if d < 10 then UInt8.ofNat (48 + d) else UInt8.ofNat (55 + d)

/-- `percent_encode_byte`: `%` and the byte's two hexadecimal digits. -/
def percentEncodeByte (b : UInt8) : Bytes := [37, hexDigit (b.toNat / 16), hexDigit (b.toNat % 16)]

/-- What `ByteSerialize` writes for one byte: the byte, `+` for a space, or its
percent-encoding. -/
def serializeByte (b : UInt8) : Bytes :=
  if byteSerializedUnchanged b then [b] else if b = 32 then [43] else percentEncodeByte b

/-- `byte_serialize`, its chunks concatenated. -/
def byteSerialize (input : Bytes) : Bytes := input.flatMap serializeByte

/-- One pair as `append_pair` writes it after the separator: name, `=`, value. -/
def encodePair (pair : Bytes × Bytes) : Bytes := byteSerialize pair.1 ++ 61 :: byteSerialize pair.2

/-- `Serializer::append_pair` on a serializer started at position 0: an `&` unless the
output is still empty, then the pair. -/
def appendPair (string : Bytes) (pair : Bytes × Bytes) : Bytes :=
  (if string.length > 0 then string ++ [38] else string) ++ encodePair pair

/-- `serde_urlencoded::to_string` of a sequence of pairs: `append_pair` for each in turn. -/
def SerdeUrlencoded.toString (pairs : List (Bytes × Bytes)) : Bytes := pairs.foldl appendPair []

/-- The bytes a serialized component is made of. -/
def serializedByte (b : UInt8) : Bool := byteSerializedUnchanged b || b == 43 || b == 37

/-- The bytes a serialized query is made of: those of its components, `&` and `=`. -/
def queryByte (b : UInt8) : Bool := serializedByte b || b == 38 || b == 61

/-! ## Parsing -/

/-- `replace_plus`: every `+` becomes a space. -/
def replacePlus (input : Bytes) : Bytes := input.map fun b => if b = 43 then 32 else b

/-- `char::from(b).to_digit(16)`. -/
def hexValue (b : UInt8) : Option Nat :=
  if 48 ≤ b ∧ b ≤ 57 then some (b.toNat - 48)
  else if 65 ≤ b ∧ b ≤ 70 then some (b.toNat - 55)
  else if 97 ≤ b ∧ b ≤ 102 then some (b.toNat - 87) else none

/-- `after_percent_sign`: the byte spelled by the two hexadecimal digits after a `%`. -/
def afterPercentSign : Bytes → Option UInt8
  | h :: l :: _ => do
    let h ← hexValue h
    let l ← hexValue l
    pure (UInt8.ofNat (h * 16 + l))
  | _ => none

/-- `percent_decode`: a `%` and two hexadecimal digits become the byte they spell; any
other `%` stays. -/
def percentDecode : Bytes → Bytes
  | [] => []
  | b :: tl =>
    if b = 37 then
      match afterPercentSign tl with
      | some d => d :: percentDecode (tl.drop 2)
      | none => b :: percentDecode tl
    else b :: percentDecode tl
termination_by bs => bs.length

/-- `decode`: `replace_plus`, then `percent_decode`. -/
def decode (input : Bytes) : Bytes := percentDecode (replacePlus input)

/-- A sequence split at its first `=` into name and value; without one the value is
empty. -/
def splitPair (sequence : Bytes) : Bytes × Bytes :=
  (sequence.takeWhile (· != 61), (sequence.dropWhile (· != 61)).drop 1)

/-- `form_urlencoded::parse`: the sequences between `&`s, empty ones skipped, each split
at its first `=` and decoded. -/
def parse (input : Bytes) : List (Bytes × Bytes) :=
  ((input.splitOn 38).filter (· ≠ [])).map fun sequence =>
    ((decode (splitPair sequence).1), decode (splitPair sequence).2)

/-! ## One byte -/

theorem hexDigit_unchanged : ∀ d < 16, byteSerializedUnchanged (hexDigit d) = true := by
  decide

theorem hexValue_hexDigit : ∀ d < 16, hexValue (hexDigit d) = some d := by
  decide

theorem serializeByte_serialized (b : UInt8) : ∀ c ∈ serializeByte b, serializedByte c := by
  have : b.toNat < 256 := b.toNat_lt_size
  have hi := hexDigit_unchanged (b.toNat / 16) (by omega)
  have lo := hexDigit_unchanged (b.toNat % 16) (by omega)
  unfold serializeByte percentEncodeByte
  split_ifs with hu <;> simp [serializedByte, hu, hi, lo]

theorem percentDecode_cons_of_ne {b : UInt8} (h : b ≠ 37) (tl : Bytes) :
    percentDecode (b :: tl) = b :: percentDecode tl := by
  rw [percentDecode, if_neg h]

/-- Decoding what `ByteSerialize` wrote for one byte gives the byte back. -/
theorem decode_serializeByte (b : UInt8) (rest : Bytes) :
    percentDecode (replacePlus (serializeByte b) ++ rest) = b :: percentDecode rest := by
  unfold serializeByte
  split_ifs with hu hs
  · have h37 : b ≠ 37 := by rintro rfl; exact absurd hu (by decide)
    have h43 : b ≠ 43 := by rintro rfl; exact absurd hu (by decide)
    simp [replacePlus, h43, percentDecode_cons_of_ne h37]
  · subst hs
    simp [replacePlus, percentDecode_cons_of_ne (show (32 : UInt8) ≠ 37 by decide)]
  · have hb : b.toNat < 256 := b.toNat_lt_size
    have hhi : b.toNat / 16 < 16 := by omega
    have hlo : b.toNat % 16 < 16 := by omega
    have h43 : ∀ d < 16, hexDigit d ≠ 43 := by decide
    have hd : UInt8.ofNat (b.toNat / 16 * 16 + b.toNat % 16) = b :=
      UInt8.toNat.inj (by rw [UInt8.toNat_ofNat_of_lt (by unfold UInt8.size; omega)]; omega)
    simp only [replacePlus, percentEncodeByte, List.map_cons, List.map_nil, List.cons_append,
      List.nil_append, if_neg (h43 _ hhi), if_neg (h43 _ hlo), if_neg (by decide : (37 : UInt8) ≠ 43)]
    rw [percentDecode, if_pos rfl]
    simp [afterPercentSign, hexValue_hexDigit _ hhi, hexValue_hexDigit _ hlo, hd]

@[simp] theorem replacePlus_append (a b : Bytes) :
    replacePlus (a ++ b) = replacePlus a ++ replacePlus b := List.map_append _ _ _

theorem decode_byteSerialize_append (s rest : Bytes) :
    percentDecode (replacePlus (byteSerialize s) ++ rest) = s ++ percentDecode rest := by
  induction s with
  | nil => rfl
  | cons b s ih =>
    rw [byteSerialize, List.flatMap_cons, replacePlus_append, List.append_assoc,
      decode_serializeByte, ← byteSerialize, ih, List.cons_append]

/-- Decoding a serialized component gives it back. -/
theorem decode_byteSerialize (s : Bytes) : decode (byteSerialize s) = s := by
  simpa [decode, percentDecode] using decode_byteSerialize_append s []

theorem byteSerialize_serialized (s : Bytes) : ∀ c ∈ byteSerialize s, serializedByte c := by
  simp only [byteSerialize, List.mem_flatMap]
  rintro c ⟨b, -, hc⟩
  exact serializeByte_serialized b c hc

theorem not_mem_byteSerialize {c : UInt8} (hc : serializedByte c = false) (s : Bytes) :
    c ∉ byteSerialize s := fun h => by simp [byteSerialize_serialized s c h] at hc

/-! ## Pairs and sequences -/

theorem splitPair_encodePair (pair : Bytes × Bytes) :
    splitPair (encodePair pair) = (byteSerialize pair.1, byteSerialize pair.2) := by
  have h61 : ∀ c ∈ byteSerialize pair.1, (c != 61) = true := fun c hc => by
    have := not_mem_byteSerialize (c := 61) (by decide) pair.1
    simpa using ne_of_mem_of_not_mem hc this
  simp [splitPair, encodePair, List.takeWhile_append_of_pos h61, List.dropWhile_append,
    List.dropWhile_eq_nil_iff.2 h61]

@[simp] theorem encodePair_ne_nil (pair : Bytes × Bytes) : encodePair pair ≠ [] := by
  simp [encodePair]

theorem not_mem_encodePair (pair : Bytes × Bytes) : 38 ∉ encodePair pair := by
  simp [encodePair, not_mem_byteSerialize (c := 38) (by decide)]

theorem appendPair_foldl (pairs : List (Bytes × Bytes)) (string : Bytes) (h : string ≠ []) :
    pairs.foldl appendPair string = string ++ pairs.flatMap (38 :: encodePair ·) := by
  induction pairs generalizing string with
  | nil => simp
  | cons p ps ih =>
    rw [List.foldl_cons, ih _ (by simp [appendPair]), appendPair, if_pos (List.length_pos.2 h)]
    simp

theorem toString_cons (p : Bytes × Bytes) (ps : List (Bytes × Bytes)) :
    SerdeUrlencoded.toString (p :: ps) = encodePair p ++ ps.flatMap (38 :: encodePair ·) := by
  rw [SerdeUrlencoded.toString, List.foldl_cons, appendPair_foldl _ _ (by simp [appendPair])]
  simp [appendPair]

/-- Appending one more pair to a nonempty query writes `&` and the pair. -/
theorem toString_concat {ps : List (Bytes × Bytes)} (h : ps ≠ []) (p : Bytes × Bytes) :
    SerdeUrlencoded.toString (ps ++ [p]) = SerdeUrlencoded.toString ps ++ 38 :: encodePair p := by
  obtain ⟨q, qs, rfl⟩ := List.exists_cons_of_ne_nil h
  simp [toString_cons]

theorem toString_queryBytes (pairs : List (Bytes × Bytes)) :
    ∀ c ∈ SerdeUrlencoded.toString pairs, queryByte c := by
  have hpair : ∀ p, ∀ c ∈ encodePair p, queryByte c := by
    intro p c hc
    simp only [encodePair, List.mem_append, List.mem_cons] at hc
    rcases hc with hc | rfl | hc
    · simp [queryByte, byteSerialize_serialized _ c hc]
    · decide
    · simp [queryByte, byteSerialize_serialized _ c hc]
  cases pairs with
  | nil => simp [SerdeUrlencoded.toString]
  | cons p ps =>
    rw [toString_cons]
    simp only [List.mem_append, List.mem_flatMap, List.mem_cons]
    rintro c (hc | ⟨q, -, rfl | hc⟩)
    exacts [hpair p c hc, by decide, hpair q c hc]

/-- Splitting at `&` recovers the written pairs. -/
theorem splitOn_encoded (e : Bytes) (he : 38 ∉ e) (ps : List (Bytes × Bytes)) :
    (e ++ ps.flatMap (38 :: encodePair ·)).splitOn 38 = e :: ps.map encodePair := by
  have hsep : ∀ e : Bytes, 38 ∉ e → ∀ x ∈ e, ¬(x == 38) = true := fun e he x hx h =>
    he (by simpa [beq_iff_eq.1 h] using hx)
  induction ps generalizing e with
  | nil => simpa [List.splitOn] using List.splitOnP_eq_single _ e (hsep e he)
  | cons p ps ih =>
    rw [List.flatMap_cons, List.cons_append, List.splitOn, List.splitOnP_first _ e (hsep e he) 38 rfl,
      ← List.splitOn, ih _ (not_mem_encodePair p), List.map_cons]

/-- `parse` inverts `to_string`. -/
theorem parse_toString (pairs : List (Bytes × Bytes)) :
    parse (SerdeUrlencoded.toString pairs) = pairs := by
  cases pairs with
  | nil => rfl
  | cons p ps =>
    rw [toString_cons, parse, splitOn_encoded _ (not_mem_encodePair p),
      List.filter_eq_self.2 fun l hl => ?_]
    · simp [List.map_map, Function.comp_def, splitPair_encodePair, decode_byteSerialize]
    simp only [List.mem_cons, List.mem_map] at hl
    rcases hl with rfl | ⟨q, -, rfl⟩ <;> simp

end OxideAuth.Consent
