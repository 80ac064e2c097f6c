/-
Runwatch.Proofs.Push.Minting — a minted token says what it was minted from.

A token is three texts with points between them, all in the alphabet for
headers. The first two hold the header and the claims as JSON text, the third
one the signature of the two; so whatever names team and key have, and
whatever time it is, a reader that splits the token at its points finds them
all again. How signatures are made does not matter here: that the key signs
the two parts is assumed.

  §1 Times  — the seconds of an instant as a JSON number (`Number.int?`).
  §2 Parts  — a part is read back (`parse_valueSegment`), is in the alphabet,
              and has no point in it (`splitOn_token`).
  §3 Tokens — what is minted (`mint_eq`), and what it says.

The main statement is `Signer.mint_says_all`.
-/
import Runwatch.Proofs.Json.RoundTrip
import Runwatch.Proofs.Text.Base64
import Runwatch.Push.ProviderToken

namespace Runwatch

open Text.Base64 (IsHeaderChar)
open Time (Instant)

/-! ## §1 Times -/

/-- The integer that a number is written as. -/
def Json.Number.int? : Json.Number → Option Int
  | .natural n => some n.toNat
  | .negative below => some (-1 - below.val)
  | .double _ => none

/-- The nanoseconds from the start of 1970 to an instant that is in no leap
second. -/
def Time.Instant.sinceStart (t : Instant) : Int := t.secs * 1000000000 + t.nanos

/-- The seconds of an instant are whole, and rounded down. -/
theorem Time.Instant.secs_eq {t : Instant} (h : t.nanos < 1000000000) :
    t.secs = t.sinceStart / 1000000000 := by
  rw [sinceStart]
  omega

/-- The calendar fits into seconds of 64 bits. -/
theorem Time.Instant.secs_of_inRange {t : Instant} (h : t.inRange = true) :
    -9000000000000 < t.secs ∧ t.secs < 9000000000000 := by
  have hleast : leastSecond = -8334601228800 := by decide
  have hgreatest : greatestSecond = 8210266876799 := by decide
  rw [inRange, Bool.and_eq_true, decide_eq_true_eq, decide_eq_true_eq, hleast, hgreatest] at h
  omega

theorem Time.Instant.of_after? {t later : Instant} {secs : Int} (h : t.after? secs = some later) :
    later.secs = t.secs + secs ∧ later.inRange = true := by
  simp only [after?, Option.ite_none_right_eq_some, Option.some.injEq] at h
  obtain ⟨hrange, rfl⟩ := h
  exact ⟨rfl, hrange⟩

namespace Push

open Json (Value Number Writable)

/-- An integer of 64 bits is a whole number in JSON. -/
theorem Signer.exists_secondValue {i : Int} (hlow : -9223372036854775808 ≤ i)
    (hhigh : i < 9223372036854775808) :
    ∃ n : Number, secondValue i = .number n ∧ n.IsWhole ∧ n.int? = some i := by
  cases i with
  | ofNat n =>
    rw [Int.ofNat_eq_natCast] at hhigh
    have hn : n < UInt64.size := Nat.lt_trans (m := 9223372036854775808) (by omega) (by decide)
    refine ⟨.natural (UInt64.ofNat n), rfl, trivial, ?_⟩
    rw [Number.int?, UInt64.toNat_ofNat_of_lt' hn]
    rfl
  | negSucc n =>
    have hn : n < Json.negatives := by
      rw [Json.negatives]
      omega
    refine ⟨.negative ⟨n, hn⟩, dif_pos hn, trivial, ?_⟩
    exact congrArg some (by simp only [Int.negSucc_eq]; omega)

/-! ## §2 Parts -/

theorem length_bytesOfNat (count n : Nat) : (Crypto.bytesOfNat count n).length = count := by
  induction count generalizing n with
  | zero => rfl
  | succ count ih => rw [Crypto.bytesOfNat, List.length_append, ih, List.length_singleton]

/-- A signature is 64 bytes long, whatever its numbers are. -/
theorem length_signature (g : Crypto.Signature) : g.bytes.length = 64 := by
  rw [Crypto.Signature.bytes, List.length_append, length_bytesOfNat, length_bytesOfNat]

namespace Signer

/-- A value is read back out of its part of a token. -/
theorem parse_valueSegment {v : Value} (h : Writable Json.maxNesting v) :
    (partText? (String.ofList (valueSegment v))).bind Json.parse? = some v := by
  rw [partText?, String.toList_ofList, valueSegment, segment, Text.Base64.decode?_encode,
    Option.bind_some, Text.Utf8.text?_bytes, Option.bind_some, Json.parse?_compact h]

theorem writable_header (s : Signer) : Writable Json.maxNesting s.header :=
  .object_cons (.string _ _) (by decide) (.object_singleton (.string _ _))

/-- The claims are written with whole numbers for the two times. -/
theorem exists_claims (s : Signer) {issuedAt expiresAt : Instant}
    (h : issuedAt.after? lifetimeSecs = some expiresAt) :
    ∃ iat exp : Number, s.claims issuedAt expiresAt =
        .object [("exp", .number exp), ("iat", .number iat), ("iss", .string s.team)] ∧
      Writable Json.maxNesting (s.claims issuedAt expiresAt) ∧
      iat.int? = some issuedAt.secs ∧ exp.int? = some (issuedAt.secs + 3000) := by
  obtain ⟨hsecs, hrange⟩ := Time.Instant.of_after? h
  obtain ⟨hlow, hhigh⟩ := Time.Instant.secs_of_inRange hrange
  rw [lifetimeSecs] at hsecs
  obtain ⟨iat, hiat, hwhole, hissued⟩ :=
    exists_secondValue (i := issuedAt.secs) (by omega) (by omega)
  obtain ⟨exp, hexp, hwhole', hexpires⟩ :=
    exists_secondValue (i := expiresAt.secs) (by omega) (by omega)
  have hclaims : s.claims issuedAt expiresAt =
      .object [("exp", .number exp), ("iat", .number iat), ("iss", .string s.team)] := by
    rw [claims, hiat, hexp]
  refine ⟨iat, exp, hclaims, ?_, hissued, hsecs ▸ hexpires⟩
  rw [hclaims]
  exact .object_cons (.number _ hwhole') (by decide)
    (.object_cons (.number _ hwhole) (by decide) (.object_singleton (.string _ _)))

/-- What stands in a part of a token is in the alphabet for headers, and so
no point. -/
theorem isHeaderChar_valueSegment (v : Value) : ∀ c ∈ valueSegment v, IsHeaderChar c :=
  Text.Base64.isHeaderChar_of_mem _

theorem point_not_mem {cs : List Char} (h : ∀ c ∈ cs, IsHeaderChar c) : '.' ∉ cs := by
  have hpoint : ¬ IsHeaderChar '.' := by decide
  exact fun hmem => hpoint (h '.' hmem)

/-- A token is taken apart at its points. -/
theorem splitOn_token {header claims mark : List Char} (hheader : '.' ∉ header)
    (hclaims : '.' ∉ claims) (hmark : '.' ∉ mark) :
    (header ++ '.' :: (claims ++ '.' :: mark)).splitOn '.' = [header, claims, mark] := by
  rw [List.splitOn_append_cons_self_of_not_mem hheader,
    List.splitOn_append_cons_self_of_not_mem hclaims, List.splitOn_eq_singleton hmark]

/-- Characters of headers are in ASCII. -/
theorem toNat_lt_of_isHeaderChar {c : Char} (h : IsHeaderChar c) : c.toNat < 0x80 := by
  rcases h with ⟨-, h⟩ | ⟨-, h⟩ | ⟨-, h⟩ | rfl | rfl
  · exact Nat.lt_of_le_of_lt h (by decide)
  · exact Nat.lt_of_le_of_lt h (by decide)
  · exact Nat.lt_of_le_of_lt h (by decide)
  · decide
  · decide

/-! ## §3 Tokens -/

/-- What is minted in the calendar by a key that signs. -/
theorem mint_eq (s : Signer) {issuedAt expiresAt : Instant}
    (hafter : issuedAt.after? lifetimeSecs = some expiresAt) {signature : Crypto.Signature}
    (hsigns : s.key.sign? (Text.Utf8.encode (s.signedPart issuedAt expiresAt)) = some signature) :
    s.mint issuedAt =
      .ok ⟨String.ofList (s.signedPart issuedAt expiresAt ++ '.' :: segment signature.bytes),
        issuedAt, expiresAt⟩ := by
  -- By cases and not by rewriting, so that no check of this computes a signature.
  fun_cases s.mint issuedAt with
  | case1 hnone => exact absurd (hnone.symm.trans hafter) nofun
  | case2 later hsome part hunsigned =>
    obtain rfl : later = expiresAt := Option.some.inj (hsome.symm.trans hafter)
    exact absurd (hunsigned.symm.trans hsigns) nofun
  | case3 later hsome part made hmade =>
    obtain rfl : later = expiresAt := Option.some.inj (hsome.symm.trans hafter)
    obtain rfl : made = signature := Option.some.inj (hmade.symm.trans hsigns)
    rfl

/-- **A minted token says all that it was minted from**, if its key signs
what it has to sign. It is made of characters for headers and of two points;
behind the alphabet its first two parts are JSON objects with the names of
the key and the team, the whole seconds of its issue and of its end 3000
seconds later, and the third one is the signature of the bytes of these two
parts with the point between them. -/
theorem mint_says_all (s : Signer) {issuedAt expiresAt : Instant}
    (hafter : issuedAt.after? lifetimeSecs = some expiresAt) {signature : Crypto.Signature}
    (hsigns : s.key.sign? (Text.Utf8.encode (s.signedPart issuedAt expiresAt)) = some signature) :
    ∃ (token : ProviderToken) (header claims mark : String) (iat exp : Number),
      s.mint issuedAt = .ok token ∧
      token.text = header ++ "." ++ claims ++ "." ++ mark ∧
      tokenParts token.text = [header, claims, mark] ∧
      (∀ c ∈ token.text.toList, IsHeaderChar c ∨ c = '.') ∧ token.text.toList.count '.' = 2 ∧
      (partText? header).bind Json.parse? =
        some (.object [("alg", .string "ES256"), ("kid", .string s.keyId)]) ∧
      (partText? claims).bind Json.parse? =
        some (.object [("exp", .number exp), ("iat", .number iat), ("iss", .string s.team)]) ∧
      iat.int? = some issuedAt.secs ∧ exp.int? = some (issuedAt.secs + 3000) ∧
      (issuedAt.nanos < 1000000000 → issuedAt.secs = issuedAt.sinceStart / 1000000000) ∧
      mark = String.ofList (segment signature.bytes) ∧ mark.length = 86 ∧
      signature.bytes.length = 64 ∧
      Text.Base64.decode? Text.Base64.url mark.toList = some signature.bytes ∧
      s.key.sign? ((header ++ "." ++ claims).toList.map fun c => UInt8.ofNat c.toNat) =
        some signature := by
  obtain ⟨iat, exp, hclaims, hwritable, hissued, hexpires⟩ := s.exists_claims hafter
  have hminted := s.mint_eq hafter hsigns
  have hparts : s.signedPart issuedAt expiresAt ++ '.' :: segment signature.bytes =
      valueSegment s.header ++ '.' :: (valueSegment (s.claims issuedAt expiresAt) ++
        '.' :: segment signature.bytes) := by
    rw [signedPart, List.append_assoc, List.cons_append]
  rw [hparts] at hminted
  have hheader := isHeaderChar_valueSegment s.header
  have hbody := isHeaderChar_valueSegment (s.claims issuedAt expiresAt)
  have hmark : ∀ c ∈ segment signature.bytes, IsHeaderChar c := Text.Base64.isHeaderChar_of_mem _
  refine ⟨_, String.ofList (valueSegment s.header),
    String.ofList (valueSegment (s.claims issuedAt expiresAt)),
    String.ofList (segment signature.bytes), iat, exp, hminted, ?text, ?parts, ?chars, ?points,
    parse_valueSegment s.writable_header, hclaims ▸ parse_valueSegment hwritable, hissued, hexpires,
    Time.Instant.secs_eq, rfl, ?length, length_signature signature, ?decoded, ?signed⟩
  case text => exact String.toList_inj.mp (by simp)
  case parts =>
    rw [tokenParts, String.toList_ofList, splitOn_token (point_not_mem hheader)
      (point_not_mem hbody) (point_not_mem hmark)]
    rfl
  case chars =>
    rw [String.toList_ofList]
    intro c hc
    simp only [List.mem_append, List.mem_cons] at hc
    rcases hc with hc | rfl | hc | rfl | hc
    · exact .inl (hheader c hc)
    · exact .inr rfl
    · exact .inl (hbody c hc)
    · exact .inr rfl
    · exact .inl (hmark c hc)
  case points =>
    simp [List.count_eq_zero.mpr (point_not_mem hheader),
      List.count_eq_zero.mpr (point_not_mem hbody), List.count_eq_zero.mpr (point_not_mem hmark)]
  case length =>
    rw [String.length_ofList, segment, Text.Base64.length_encode, length_signature]
  case decoded => rw [String.toList_ofList, segment, Text.Base64.decode?_encode]
  case signed =>
    have hascii : ∀ c ∈ s.signedPart issuedAt expiresAt, c.toNat < 0x80 := by
      intro c hc
      rw [signedPart, List.mem_append, List.mem_cons] at hc
      rcases hc with hc | rfl | hc
      · exact toNat_lt_of_isHeaderChar (hheader c hc)
      · decide
      · exact toNat_lt_of_isHeaderChar (hbody c hc)
    rw [Text.Utf8.encode_ascii hascii] at hsigns
    simpa [signedPart] using hsigns

/-- A team and a key with names that are escaped. -/
def escapedNames : Signer := ⟨"tëam", "k\"1", ⟨2, by decide, by decide⟩⟩

/-- Half a second before 1970. -/
theorem escapedNames_says_all :
    ∃ (signature : Crypto.Signature) (token : ProviderToken) (header claims mark : String)
        (iat exp : Number),
      escapedNames.mint ⟨-1, 500000000⟩ = .ok token ∧
      tokenParts token.text = [header, claims, mark] ∧
      (partText? header).bind Json.parse? =
        some (.object [("alg", .string "ES256"), ("kid", .string "k\"1")]) ∧
      (partText? claims).bind Json.parse? =
        some (.object [("exp", .number exp), ("iat", .number iat), ("iss", .string "tëam")]) ∧
      iat.int? = some (-1) ∧ exp.int? = some 2999 ∧ mark.length = 86 ∧
      mark = String.ofList (segment signature.bytes) := by
  have hsome : (escapedNames.key.sign? (Text.Utf8.encode
      (escapedNames.signedPart ⟨-1, 500000000⟩ ⟨2999, 500000000⟩))).isSome = true := by
    decide +kernel
  obtain ⟨signature, hsigns⟩ := Option.isSome_iff_exists.mp hsome
  have hafter : Instant.after? ⟨-1, 500000000⟩ lifetimeSecs = some ⟨2999, 500000000⟩ := by decide
  obtain ⟨token, header, claims, mark, iat, exp, hminted, -, hparts, -, -, hheader, hclaims, hissued,
      hexpires, -, hmark, hlength, -⟩ := mint_says_all escapedNames hafter hsigns
  exact ⟨signature, token, header, claims, mark, iat, exp, hminted, hparts, hheader, hclaims,
    hissued, hexpires, hlength, hmark⟩

end Signer

end Push

end Runwatch
