/-
Runwatch.Proofs.Net.Segments — what becomes of a path.

A path is cut at its slashes, its dot segments are resolved, and what is left
is written down. Resolving lets segments go and brings none but empty ones, so
that fewer bytes are read from a path with a dot segment in it than from its
segments as they were (`resolveRaw_or`). A path without one is read as it was
(`bytes_segmentsOf_or`).

  §1 Cutting   — the segments of a text, and the text that they make.
  §2 Resolving — the segments before they are written down (`resolveRaw`).
  §3 Reading   — what a path stands for.
  §4 Files     — the path of a file.
-/
import Runwatch.Net.Url
import Runwatch.Proofs.Net.Percent

namespace Runwatch.Net

open Text (hexValue?)
open Text.Utf8 (encode encodeChar encode_cons)

/-! ## §1 Cutting -/

/-- Segments, each after a slash. -/
def slashed (parts : List (List Char)) : List Char := parts.flatMap ('/' :: ·)

/-- The segments make the text again. -/
theorem slashed_splitOn (cs : List Char) : slashed (cs.splitOn '/') = '/' :: cs := by
  induction cs with
  | nil => rfl
  | cons c rest ih =>
    obtain ⟨part, parts, hparts⟩ := List.exists_cons_of_ne_nil (List.splitOn_ne_nil '/' rest)
    rw [hparts] at ih
    have htail : part ++ slashed parts = rest := (List.cons.inj ih).2
    rw [List.splitOn_cons_eq_if_modifyHead, hparts]
    split
    · next hc =>
      obtain rfl := eq_of_beq hc
      show '/' :: ([] ++ slashed (part :: parts)) = _
      rw [ih, List.nil_append]
    · show '/' :: (c :: part ++ slashed parts) = _
      rw [List.cons_append, htail]

/-- What segments stand for, each after a slash. -/
def readSegments (parts : List (List Char)) : List UInt8 :=
  parts.flatMap (0x2F :: percentDecode ·)

theorem percentDecode_append_slashed (part : List Char) (parts : List (List Char)) :
    percentDecode (part ++ slashed parts) = percentDecode part ++ percentDecode (slashed parts) := by
  cases parts with
  | nil =>
    show percentDecode (part ++ []) = percentDecode part ++ []
    rw [List.append_nil, List.append_nil]
  | cons next rest =>
    show percentDecode (part ++ '/' :: (next ++ slashed rest)) =
      percentDecode part ++ percentDecode ('/' :: (next ++ slashed rest))
    rw [percentDecode_append_mark (by decide) (by decide), percentDecode_cons (by decide),
      List.append_assoc]

theorem percentDecode_slashed (parts : List (List Char)) :
    percentDecode (slashed parts) = readSegments parts := by
  induction parts with
  | nil => rfl
  | cons part rest ih =>
    show percentDecode ('/' :: (part ++ slashed rest)) = 0x2F :: percentDecode part ++ readSegments rest
    rw [percentDecode_cons (by decide), percentDecode_append_slashed, ih]
    rfl

theorem length_readSegments_cons (part : List Char) (rest : List (List Char)) :
    (readSegments (part :: rest)).length =
      1 + (percentDecode part).length + (readSegments rest).length := by
  show (0x2F :: percentDecode part ++ readSegments rest).length = _
  rw [List.length_append, List.length_cons]
  omega

theorem length_readSegments_append (xs ys : List (List Char)) :
    (readSegments (xs ++ ys)).length = (readSegments xs).length + (readSegments ys).length := by
  unfold readSegments
  rw [List.flatMap_append, List.length_append]

theorem length_readSegments_reverse (parts : List (List Char)) :
    (readSegments parts.reverse).length = (readSegments parts).length := by
  induction parts with
  | nil => rfl
  | cons part rest ih =>
    rw [List.reverse_cons, length_readSegments_append, ih, length_readSegments_cons,
      length_readSegments_cons]
    show _ + (1 + _ + 0) = _
    omega

theorem length_readSegments_drop (parts : List (List Char)) :
    (readSegments (parts.drop 1)).length ≤ (readSegments parts).length := by
  cases parts with
  | nil => exact Nat.le_refl _
  | cons part rest =>
    rw [length_readSegments_cons]
    exact Nat.le_add_left _ _

/-! ## §2 Resolving -/

/-- A segment that stands for itself or for its parent. -/
def isDot (segment : List Char) : Bool := isParent segment || isSelf segment

theorem ne_nil_of_isDot {segment : List Char} (h : isDot segment = true) : segment ≠ [] := by
  rintro rfl
  exact absurd h (by decide)

/-- Segments are resolved on top of those already resolved, last first. -/
def resolveRaw (done : List (List Char)) : List (List Char) → List (List Char)
  | [] => done.reverse
  | segment :: rest =>
    if isParent segment then
      resolveRaw (if rest.isEmpty then [] :: done.drop 1 else done.drop 1) rest
    else if isSelf segment then resolveRaw (if rest.isEmpty then [] :: done else done) rest
    else resolveRaw (segment :: done) rest

/-- A segment as it is written in a path. -/
def written (segment : List Char) : String := String.ofList (percentEncode pathSet segment)

/-- Segments are written down when they are resolved; that could as well be
done at the end. -/
theorem resolve_written (done parts : List (List Char)) :
    resolve (done.map written) parts = (resolveRaw done parts).map written := by
  induction parts generalizing done with
  | nil =>
    unfold resolve resolveRaw
    exact List.map_reverse.symm
  | cons segment rest ih =>
    unfold resolve resolveRaw
    simp only
    split
    · rw [← ih]
      split <;> simp [written, percentEncode]
    · split
      · rw [← ih]
        split <;> simp [written, percentEncode]
      · exact ih (segment :: done)

theorem resolveRaw_plain {segment : List Char} (h : isDot segment = false)
    (done rest : List (List Char)) :
    resolveRaw done (segment :: rest) = resolveRaw (segment :: done) rest := by
  obtain ⟨hparent, hself⟩ := Bool.or_eq_false_iff.mp h
  rw [resolveRaw, hparent, hself]
  rfl

/-- A dot segment leaves no more behind than an empty one. -/
theorem resolveRaw_dot {segment : List Char} (h : isDot segment = true)
    (done rest : List (List Char)) :
    ∃ next, resolveRaw done (segment :: rest) = resolveRaw next rest ∧
      (readSegments next).length ≤ 1 + (readSegments done).length := by
  have hdrop := length_readSegments_drop done
  have hempty (done : List (List Char)) :
      (readSegments ([] :: done)).length = 1 + (readSegments done).length :=
    length_readSegments_cons [] done
  cases hparent : isParent segment with
  | true =>
    refine ⟨_, by rw [resolveRaw, if_pos hparent], ?_⟩
    split
    · rw [hempty]
      omega
    · omega
  | false =>
    have hself : isSelf segment = true := by rwa [isDot, hparent, Bool.false_or] at h
    refine ⟨_, by rw [resolveRaw, hparent, if_neg Bool.false_ne_true, if_pos hself], ?_⟩
    split
    · exact Nat.le_of_eq (hempty done)
    · omega

/-- **Resolving.** Without a dot segment nothing happens; with one, fewer bytes
are read than before. -/
theorem resolveRaw_or (done parts : List (List Char)) :
    (∀ part ∈ parts, isDot part = false) ∧ resolveRaw done parts = done.reverse ++ parts ∨
      (∃ part ∈ parts, isDot part = true) ∧ (readSegments (resolveRaw done parts)).length <
        (readSegments done).length + (readSegments parts).length := by
  induction parts generalizing done with
  | nil => exact .inl ⟨nofun, (List.append_nil _).symm⟩
  | cons segment rest ih =>
    have hle (done : List (List Char)) : (readSegments (resolveRaw done rest)).length ≤
        (readSegments done).length + (readSegments rest).length := by
      rcases ih done with ⟨-, heq⟩ | ⟨-, hlt⟩
      · refine Nat.le_of_eq ?_
        rw [heq, length_readSegments_append, length_readSegments_reverse]
      · exact Nat.le_of_lt hlt
    cases hdot : isDot segment with
    | true =>
      obtain ⟨next, hnext, hlength⟩ := resolveRaw_dot hdot done rest
      refine .inr ⟨⟨segment, List.mem_cons_self, hdot⟩, ?_⟩
      -- The segment itself was read as a character at least.
      have hself := List.length_pos_iff.mpr (percentDecode_ne_nil (ne_nil_of_isDot hdot))
      have hrest := hle next
      rw [hnext, length_readSegments_cons]
      omega
    | false =>
      rw [resolveRaw_plain hdot]
      rcases ih (segment :: done) with ⟨hrest, heq⟩ | ⟨⟨part, hpart, hdotted⟩, hlt⟩
      · refine .inl ⟨List.forall_mem_cons.mpr ⟨hdot, hrest⟩, ?_⟩
        rw [heq, List.reverse_cons, List.append_assoc, List.singleton_append]
      · refine .inr ⟨⟨part, List.mem_cons_of_mem _ hpart, hdotted⟩, ?_⟩
        rw [length_readSegments_cons] at hlt ⊢
        omega

/-! ## §3 Reading -/

/-- The bytes that a path stands for. -/
def UrlPath.bytes (path : UrlPath) : List UInt8 := percentDecode path.text.toList

theorem spares_pathSet : Spares pathSet where
  percent := by decide
  digit c n h := by
    have hall : ∀ k < 0x80, (hexValue? (Char.ofNat k)).isSome = true →
        pathSet (Char.ofNat k) = false := by decide
    have hc := hall c.toNat (toNat_of_hexValue? h)
    rw [Char.ofNat_toNat, h] at hc
    exact hc rfl

theorem bytes_written (parts : List (List Char)) :
    (UrlPath.segments (parts.map written)).bytes = readSegments parts := by
  have htext : (UrlPath.segments (parts.map written)).text.toList =
      slashed (parts.map (percentEncode pathSet)) := by
    unfold UrlPath.text slashed
    rw [String.toList_join, List.flatMap_map]
    simp [List.flatMap_map, written]
  unfold UrlPath.bytes
  rw [htext, percentDecode_slashed]
  unfold readSegments
  rw [List.flatMap_map]
  simp only [spares_pathSet.percentDecode_percentEncode]

/-- With a scheme of the web a backslash counts as a slash. -/
def turned (web : Bool) (cs : List Char) : List Char :=
  if web then cs.map fun c => if c == '\\' then '/' else c else cs

theorem turned_slash (web : Bool) (cs : List Char) : turned web ('/' :: cs) = '/' :: turned web cs := by
  unfold turned
  split <;> rfl

theorem segmentsOf_slash (web : Bool) (cs : List Char) :
    segmentsOf web ('/' :: cs) = (resolveRaw [] ((turned web cs).splitOn '/')).map written := by
  have hturned := turned_slash web cs
  unfold turned at hturned
  unfold segmentsOf
  simp only [hturned]
  exact resolve_written [] _

theorem length_encode_turned (web : Bool) (cs : List Char) :
    (encode (turned web cs)).length = (encode cs).length := by
  unfold turned
  split
  · induction cs with
    | nil => rfl
    | cons c rest ih =>
      rw [List.map_cons, encode_cons, encode_cons, List.length_append, List.length_append, ih]
      congr 1
      split
      · next hback =>
        obtain rfl := eq_of_beq hback
        rfl
      · rfl
  · rfl

/-- **What a path stands for.** Either it has no dot segments and is read
character by character, or fewer bytes are read. -/
theorem bytes_segmentsOf_or (web : Bool) (cs : List Char) :
    ((∀ part ∈ (turned web cs).splitOn '/', isDot part = false) ∧ ¬ HasEscape (turned web cs) ∧
      (UrlPath.segments (segmentsOf web ('/' :: cs))).bytes = encode ('/' :: turned web cs)) ∨
    ((∃ part ∈ (turned web cs).splitOn '/', isDot part = true) ∨ HasEscape (turned web cs)) ∧
      (UrlPath.segments (segmentsOf web ('/' :: cs))).bytes.length < (encode ('/' :: cs)).length := by
  have hwhole : readSegments ((turned web cs).splitOn '/') =
      encodeChar '/' ++ percentDecode (turned web cs) := by
    rw [← percentDecode_slashed, slashed_splitOn, percentDecode_cons (by decide)]
  have hlength : (encode ('/' :: cs)).length = 1 + (encode (turned web cs)).length := by
    rw [encode_cons, List.length_append, length_encode_turned]
    rfl
  rw [segmentsOf_slash, bytes_written, hlength, encode_cons]
  rcases resolveRaw_or [] ((turned web cs).splitOn '/') with ⟨hplain, heq⟩ | ⟨hdot, hlt⟩
  · rw [heq, List.reverse_nil, List.nil_append, hwhole]
    rcases percentDecode_or (turned web cs) with ⟨hread, hnone⟩ | ⟨hlt, hescape⟩
    · exact .inl ⟨hplain, hnone, by rw [hread]⟩
    · refine .inr ⟨.inr hescape, ?_⟩
      rw [List.length_append]
      exact Nat.add_lt_add_left hlt 1
  · refine .inr ⟨.inl hdot, ?_⟩
    have hle := length_percentDecode_le (turned web cs)
    rw [hwhole, List.length_append] at hlt
    have hslash : (encodeChar '/').length = 1 := rfl
    have hnil : (readSegments []).length = 0 := rfl
    omega

theorem turned_eq_self_iff {web : Bool} {cs : List Char} :
    turned web cs = cs ↔ (web = true → '\\' ∉ cs) := by
  cases web with
  | false => simp [turned]
  | true =>
    show (cs.map fun c => if c == '\\' then '/' else c) = cs ↔ _
    constructor
    · intro heq _ hin
      have hturned : '\\' ∈ cs.map fun c => if c == '\\' then '/' else c := heq.symm ▸ hin
      obtain ⟨c, -, hc⟩ := List.mem_map.mp hturned
      split at hc
      · cases hc
      · next hne => exact hne (beq_iff_eq.mpr hc)
    · intro hnone
      refine (List.map_congr_left ?_).trans (List.map_id cs)
      intro c hc
      refine if_neg fun hback => hnone rfl ?_
      exact beq_iff_eq.mp hback ▸ hc

/-! ## §4 Files -/

theorem bytes_cons_empty (names : List String) :
    (UrlPath.segments ("" :: names)).bytes = 0x2F :: (UrlPath.segments names).bytes := by
  have htext : (UrlPath.segments ("" :: names)).text.toList =
      '/' :: (UrlPath.segments names).text.toList := by
    simp [UrlPath.text]
  unfold UrlPath.bytes
  rw [htext, percentDecode_cons (by decide)]
  rfl

/-- The path of a file loses the empty segments in front. -/
theorem length_bytes_filePath (names : List String) :
    (filePath (.segments names)).bytes.length ≤ (UrlPath.segments names).bytes.length ∨
      (filePath (.segments names)).bytes.length = 1 := by
  have hdrop : (UrlPath.segments (names.dropWhile (·.isEmpty))).bytes.length ≤
      (UrlPath.segments names).bytes.length := by
    induction names with
    | nil => exact Nat.le_refl _
    | cons name rest ih =>
      rw [List.dropWhile_cons]
      split
      · next hempty =>
        rw [String.isEmpty_iff.mp hempty, bytes_cons_empty]
        exact Nat.le_succ_of_le ih
      · exact Nat.le_refl _
  unfold filePath
  simp only
  split
  · exact .inr (by decide)
  · exact .inl hdrop

end Runwatch.Net
