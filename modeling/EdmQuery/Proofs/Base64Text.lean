import EdmQuery.Proofs.Words

set_option autoImplicit false

namespace EdmQuery

namespace Base64

open Parsing

/-- The groups of six bits of a byte string, the last one filled up with zeros. -/
def sextets : List UInt8 → List Nat
  | [] => []
  | [a] => [a.toNat / 4, a.toNat % 4 * 16]
  | [a, b] => [a.toNat / 4, a.toNat % 4 * 16 + b.toNat / 16, b.toNat % 16 * 4]
  | a :: b :: c :: rest =>
    a.toNat / 4 :: (a.toNat % 4 * 16 + b.toNat / 16) :: (b.toNat % 16 * 4 + c.toNat / 64) ::
      c.toNat % 64 :: sextets rest

def padding : List UInt8 → List Char
  | [] => []
  | [_] => ['=', '=']
  | [_, _] => ['=']
  | _ :: _ :: _ :: rest => padding rest

theorem encodeWith_eq (alphabet : Alphabet) (bytes : List UInt8) :
    encodeWith alphabet bytes = (sextets bytes).map alphabet.encode ++ padding bytes := by
  fun_induction sextets bytes with
  | case1 => rfl
  | case2 a => rfl
  | case3 a b => rfl
  | case4 a b c rest ih =>
    rw [encodeWith, ih]
    rfl

theorem sextets_lt (bytes : List UInt8) : ∀ value ∈ sextets bytes, value < 64 := by
  fun_induction sextets bytes with
  | case1 =>
    intro value inside
    cases inside
  | case2 a =>
    have first := a.toNat_lt
    simp only [List.forall_mem_cons, List.not_mem_nil, false_implies, implies_true, and_true]
    omega
  | case3 a b =>
    have first := a.toNat_lt
    have second := b.toNat_lt
    simp only [List.forall_mem_cons, List.not_mem_nil, false_implies, implies_true, and_true]
    omega
  | case4 a b c rest ih =>
    have first := a.toNat_lt
    have second := b.toNat_lt
    have third := c.toNat_lt
    simp only [List.forall_mem_cons]
    refine ⟨?_, ?_, ?_, ?_, ih⟩ <;> omega

/-- The bytes are put together again from their groups of bits. -/
theorem unpack?_sextets (bytes : List UInt8) : unpack? (sextets bytes) = some bytes := by
  have byte : ∀ (value : Nat) (byte : UInt8), value = byte.toNat → UInt8.ofNat value = byte := by
    rintro value byte rfl
    exact UInt8.ofNat_toNat
  fun_induction sextets bytes with
  | case1 => rfl
  | case2 a =>
    have first := a.toNat_lt
    rw [unpack?, if_pos (by omega), byte _ a (by omega)]
  | case3 a b =>
    have first := a.toNat_lt
    have second := b.toNat_lt
    rw [unpack?, if_pos (by omega), byte _ a (by omega), byte _ b (by omega)]
  | case4 a b c rest ih =>
    have first := a.toNat_lt
    have second := b.toNat_lt
    have third := c.toNat_lt
    rw [unpack?, ih, Option.map_some, byte _ a (by omega), byte _ b (by omega),
      byte _ c (by omega)]

theorem decode?_encode {value : Nat} (small : value < 64) :
    urlSafe.decode? (urlSafe.encode value) = some value := by
  have all : ∀ value < 64, urlSafe.decode? (urlSafe.encode value) = some value := by decide
  exact all value small

theorem encode_ne {value : Nat} (small : value < 64) :
    urlSafe.encode value ≠ '=' ∧ urlSafe.encode value ≠ '\'' := by
  have all : ∀ value < 64, urlSafe.encode value ≠ '=' ∧ urlSafe.encode value ≠ '\'' := by decide
  exact all value small

theorem mapM_decode?_encode {values : List Nat} (small : ∀ value ∈ values, value < 64) :
    (values.map urlSafe.encode).mapM urlSafe.decode? = some values := by
  induction values with
  | nil => rfl
  | cons value rest ih =>
    rw [List.forall_mem_cons] at small
    rw [List.map_cons, List.mapM_cons, decode?_encode small.1, ih small.2]
    rfl

theorem padding_cases (bytes : List UInt8) :
    padding bytes = [] ∨ padding bytes = ['='] ∨ padding bytes = ['=', '='] := by
  fun_induction padding bytes with
  | case1 => exact .inl rfl
  | case2 => exact .inr (.inr rfl)
  | case3 => exact .inr (.inl rfl)
  | case4 a b c rest ih => exact ih

theorem length_encodeWith_mod (alphabet : Alphabet) (bytes : List UInt8) :
    (encodeWith alphabet bytes).length % 4 = 0 := by
  fun_induction encodeWith alphabet bytes with
  | case1 => rfl
  | case2 => simp only [List.length_cons, List.length_nil]
  | case3 => simp only [List.length_cons, List.length_nil]
  | case4 a b c rest ih =>
    simp only [List.length_cons]
    omega

theorem decodeWith?_encodeWith (bytes : List UInt8) :
    decodeWith? urlSafe true (encodeWith urlSafe bytes) = some bytes := by
  have small := sextets_lt bytes
  have symbol : ∀ char ∈ (sextets bytes).map urlSafe.encode, (char != '=') = true := by
    intro char inside
    obtain ⟨value, listed, rfl⟩ := List.mem_map.1 inside
    exact bne_iff_ne.2 (encode_ne (small value listed)).1
  have stops : StopsAt (· != '=') (padding bytes) := by
    rcases padding_cases bytes with none | one | two
    · rw [none]
      exact stopsAt_nil
    · rw [one]
      exact stopsAt_cons rfl
    · rw [two]
      exact stopsAt_cons rfl
  have complete : ((padding bytes).all (· == '=') && (padding bytes).length ≤ 2 &&
      (encodeWith urlSafe bytes).length % 4 == 0) = true := by
    rw [length_encodeWith_mod]
    rcases padding_cases bytes with none | one | two
    · rw [none]
      rfl
    · rw [one]
      rfl
    · rw [two]
      rfl
  have taken : (encodeWith urlSafe bytes).takeWhile (· != '=') =
      (sextets bytes).map urlSafe.encode := by
    rw [encodeWith_eq, stops.takeWhile_append symbol]
  have dropped : (encodeWith urlSafe bytes).dropWhile (· != '=') = padding bytes := by
    rw [encodeWith_eq, stops.dropWhile_append symbol]
  rw [decodeWith?]
  simp only [taken, dropped, if_true, complete]
  rw [mapM_decode?_encode small, Option.bind_some, unpack?_sextets]

theorem decode?_encodeWith (bytes : List UInt8) :
    decode? (encodeWith urlSafe bytes) = some bytes := by
  rw [decode?, decodeWith?_encodeWith, Option.some_or]

/-- No quote stands in an encoded text. -/
theorem quote_not_mem_encodeWith (bytes : List UInt8) :
    '\'' ∉ encodeWith urlSafe bytes := by
  rw [encodeWith_eq, List.mem_append]
  rintro (symbol | padded)
  · obtain ⟨value, listed, same⟩ := List.mem_map.1 symbol
    exact (encode_ne (sextets_lt bytes value listed)).2 same
  · rcases padding_cases bytes with none | one | two
    · rw [none] at padded
      cases padded
    · rw [one] at padded
      exact absurd padded (by decide)
    · rw [two] at padded
      exact absurd padded (by decide)

end Base64

end EdmQuery
