/-
Runwatch.Proofs.Net.Origin — a path behind an origin.

An origin is a scheme and the host that it names, with no path behind it. A
path that is put behind it is trimmed at its end, loses its line ends, and is
cut at the first mark of a query or a fragment. Whatever it is, the address
that is read has the scheme, the host and the port of the origin
(`Origin.reaches`).

  §1 Trimming  — what is kept of the end of an address (`kept`).
  §2 Tails     — what a path leaves of the rest of an address.
  §3 Origins   — reading an origin with a path (`Origin`, `Reaches`).
-/
import Mathlib.Data.List.TakeWhile
import Runwatch.Net.Url
import Runwatch.Proofs.Net.Segments

namespace Runwatch.Net

/-! ## §1 Trimming -/

/-- A character that is no line end and no tab. -/
def isCounted (c : Char) : Bool := c != '\t' && c != '\n' && c != '\r'

/-- What is kept of the end of an address. -/
def kept (cs : List Char) : List Char :=
  (cs.reverse.dropWhile isEndBlank).reverse.filter isCounted

theorem isCounted_of_not_blank {c : Char} (h : isEndBlank c = false) : isCounted c = true := by
  have hne {d : Char} (hd : isEndBlank d = true) : (c != d) = true := by
    refine bne_iff_ne.mpr ?_
    rintro rfl
    exact absurd (h.symm.trans hd) nofun
  unfold isCounted
  rw [hne (by decide), hne (by decide), hne (by decide)]
  rfl

theorem dropWhile_blank {cs : List Char} (h : ∀ c ∈ cs, isEndBlank c = false) :
    cs.dropWhile isEndBlank = cs := by
  cases cs with
  | nil => rfl
  | cons c rest =>
    rw [List.dropWhile_cons, h c List.mem_cons_self]
    rfl

/-- Blanks are trimmed behind the last character that is none. -/
theorem kept_append {front : List Char} (h : ∀ c ∈ front, isEndBlank c = false) (cs : List Char) :
    kept (front ++ cs) = front ++ kept cs := by
  have hfront : front.filter isCounted = front :=
    List.filter_eq_self.mpr fun c hc => isCounted_of_not_blank (h c hc)
  have hback : front.reverse.dropWhile isEndBlank = front.reverse :=
    dropWhile_blank fun c hc => h c (List.mem_reverse.mp hc)
  unfold kept
  rw [List.reverse_append, List.dropWhile_append, hback]
  split
  · next hall =>
    rw [List.reverse_reverse, hfront, List.isEmpty_iff.mp hall]
    exact (List.append_nil front).symm
  · rw [List.reverse_append, List.reverse_reverse, List.filter_append, hfront]

theorem kept_sublist (cs : List Char) : List.Sublist (kept cs) cs := by
  have htrimmed : List.Sublist (cs.reverse.dropWhile isEndBlank).reverse cs := by
    have hdrop := (List.dropWhile_sublist (l := cs.reverse) isEndBlank).reverse
    rwa [List.reverse_reverse] at hdrop
  exact List.filter_sublist.trans htrimmed

/-- All of a text is kept if it holds no tab and no line end, and does not end
in a blank. -/
theorem kept_eq_self_iff {cs : List Char} : kept cs = cs ↔
    (∀ c ∈ cs, isCounted c = true) ∧ ∀ c, cs.getLast? = some c → isEndBlank c = false := by
  constructor
  · intro h
    have htrimmed : (cs.reverse.dropWhile isEndBlank).reverse = cs := by
      have hdrop := (List.dropWhile_sublist (l := cs.reverse) isEndBlank).reverse
      rw [List.reverse_reverse] at hdrop
      refine hdrop.eq_of_length_le ?_
      have hfilter := List.length_filter_le isCounted (cs.reverse.dropWhile isEndBlank).reverse
      unfold kept at h
      rwa [h] at hfilter
    unfold kept at h
    rw [htrimmed] at h
    refine ⟨List.filter_eq_self.mp h, ?_⟩
    intro c hc
    obtain ⟨rest, hrev⟩ : ∃ rest, cs.reverse = c :: rest := by
      rw [← List.head?_reverse] at hc
      exact List.head?_eq_some_iff.mp hc
    rw [List.reverse_eq_iff, hrev] at htrimmed
    refine Bool.eq_false_iff.mpr fun hblank => ?_
    rw [List.dropWhile_cons, if_pos hblank] at htrimmed
    have hshort := (List.dropWhile_sublist (l := rest) isEndBlank).length_le
    rw [htrimmed, List.length_cons] at hshort
    exact absurd hshort (Nat.not_succ_le_self _)
  · rintro ⟨hcounted, hlast⟩
    have htrim : cs.reverse.dropWhile isEndBlank = cs.reverse := by
      cases hrev : cs.reverse with
      | nil => rfl
      | cons c rest =>
        have hc : cs.getLast? = some c := by
          rw [← List.head?_reverse, hrev]
          rfl
        rw [List.dropWhile_cons, hlast c hc]
        rfl
    unfold kept
    rw [htrim, List.reverse_reverse]
    exact List.filter_eq_self.mpr hcounted

/-- The characters of an address that begins with no blank. -/
theorem countedChars_append {front : List Char} (hne : front ≠ [])
    (h : ∀ c ∈ front, isEndBlank c = false) (cs : List Char) :
    countedChars (String.ofList (front ++ cs)) = front ++ kept cs := by
  obtain ⟨first, later, rfl⟩ := List.exists_cons_of_ne_nil hne
  have hstart : (first :: later ++ cs).dropWhile isEndBlank = first :: later ++ cs := by
    rw [List.cons_append, List.dropWhile_cons, h first List.mem_cons_self]
    rfl
  unfold countedChars
  rw [String.toList_ofList, hstart]
  exact kept_append h cs

/-! ## §2 Tails -/

/-- A path ends where a query or a fragment begins, and only one that goes on
to the end has none behind it. -/
theorem withPath_eq (web : Bool) (u : Url) (cs : List Char) : ∃ query fragment,
    withPath web u cs =
      { u with
        path := .segments (segmentsOf web (cs.takeWhile (!endsPath ·)))
        query := query
        fragment := fragment } ∧
    (u.query = none → (query = none ∧ fragment = none ↔ ∀ c ∈ cs, endsPath c = false)) := by
  have hsplit : cs.drop (cs.takeWhile (!endsPath ·)).length = cs.dropWhile (!endsPath ·) := by
    calc cs.drop (cs.takeWhile (!endsPath ·)).length
        = (cs.takeWhile (!endsPath ·) ++ cs.dropWhile (!endsPath ·)).drop
            (cs.takeWhile (!endsPath ·)).length := by rw [List.takeWhile_append_dropWhile]
      _ = cs.dropWhile (!endsPath ·) := List.drop_left
  have hall : (∀ c ∈ cs, endsPath c = false) ↔ cs.dropWhile (!endsPath ·) = [] := by
    rw [List.dropWhile_eq_nil_iff]
    simp only [Bool.not_eq_true']
  unfold withPath
  simp only [hsplit, hall]
  cases hrest : cs.dropWhile (!endsPath ·) with
  | nil =>
    unfold withTail
    exact ⟨u.query, none, rfl, fun hquery => by simp [hquery]⟩
  | cons c rest =>
    have hc : endsPath c = true := by
      have hhead := List.head?_dropWhile_not (!endsPath ·) cs
      rw [hrest] at hhead
      simpa using hhead
    rcases Bool.or_eq_true .. ▸ hc with hquery | hfragment
    · obtain rfl := eq_of_beq hquery
      exact ⟨some _, _, rfl, fun _ => by simp⟩
    · obtain rfl := eq_of_beq hfragment
      exact ⟨_, some _, rfl, fun _ => by simp⟩

/-- A path that is put behind an address stands in the place of its own. -/
theorem withPath_replace (web : Bool) (u : Url) (hquery : u.query = none) (path : UrlPath)
    (cs : List Char) :
    withPath web { u with path := path, fragment := none } cs = withPath web u cs := by
  unfold withPath
  simp only
  generalize cs.drop _ = tail
  unfold withTail
  split <;> simp [hquery]

theorem withPath_withPath (web : Bool) (u : Url) (hquery : u.query = none) (cs : List Char) :
    withPath web (withPath web u []) cs = withPath web u cs :=
  withPath_replace web u hquery (.segments (segmentsOf web [])) cs

section

variable (scheme : String) {authority : List Char}

/-- A host and what stands in front of it end at a slash. -/
theorem takeWhile_authority
    (hplain : ∀ c ∈ authority, isAnySlash c = false ∧ endsPath c = false) {tail : List Char}
    (htail : tail = [] ∨ ∃ cs, tail = '/' :: cs) :
    (authority ++ tail).takeWhile (fun c =>
      !(c == '/' || endsPath c || (isWebScheme scheme && c == '\\'))) = authority := by
  have hpass : ∀ c ∈ authority,
      (!(c == '/' || endsPath c || (isWebScheme scheme && c == '\\'))) = true := by
    intro c hc
    obtain ⟨hslash, hpath⟩ := hplain c hc
    unfold isAnySlash at hslash
    rw [Bool.or_eq_false_iff] at hslash
    rw [hslash.1, hslash.2, hpath]
    simp
  rw [List.takeWhile_append_of_pos hpass]
  rcases htail with rfl | ⟨cs, rfl⟩
  · exact List.append_nil _
  · exact List.append_nil _

/-- What follows the host is nothing but the path. -/
theorem readAuthority?_append
    (hplain : ∀ c ∈ authority, isAnySlash c = false ∧ endsPath c = false) {tail : List Char}
    (htail : tail = [] ∨ ∃ cs, tail = '/' :: cs) :
    readAuthority? scheme (authority ++ tail) =
      (readAuthority? scheme authority).map fun home =>
        withPath (isWebScheme scheme) home tail := by
  have hself := takeWhile_authority scheme hplain (.inl rfl)
  rw [List.append_nil] at hself
  unfold readAuthority?
  simp only [takeWhile_authority scheme hplain htail, hself, List.drop_left, List.drop_length,
    Option.bind_eq_bind, apply_ite (Option.map _), Option.map_bind, Function.comp_def,
    Option.map_none, Option.map_some, withPath_withPath]

theorem readAuthority?_bare
    (hplain : ∀ c ∈ authority, isAnySlash c = false ∧ endsPath c = false) {home : Url}
    (h : readAuthority? scheme authority = some home) :
    home.scheme = scheme ∧ home.query = none := by
  have hself := takeWhile_authority scheme hplain (.inl rfl)
  rw [List.append_nil] at hself
  unfold readAuthority? at h
  simp only [hself, List.drop_length] at h
  split at h
  all_goals
    obtain ⟨host, -, h⟩ := Option.bind_eq_some_iff.mp h
    split at h
    · cases h
    · obtain ⟨port, -, h⟩ := Option.bind_eq_some_iff.mp h
      obtain rfl := Option.some.inj h
      exact ⟨rfl, rfl⟩

end

/-! ## §3 Origins -/

/-- A character of a scheme. -/
def isSchemePart (c : Char) : Bool :=
  isLetter c || Text.isDigit c || c == '+' || c == '-' || c == '.'

/-- A scheme and what it names, of the form `scheme://host` or
`scheme://host:port`. -/
structure Origin where
  scheme : List Char
  authority : List Char
  letter : ∃ first, scheme.head? = some first ∧ isLetter first = true
  parts : ∀ c ∈ scheme, isSchemePart c = true
  named : authority ≠ []
  plain : ∀ c ∈ authority, isEndBlank c = false ∧ isAnySlash c = false ∧ endsPath c = false

namespace Origin

/-- What stands behind the scheme and its colon. -/
def rest (o : Origin) : List Char := '/' :: '/' :: o.authority

def chars (o : Origin) : List Char := o.scheme ++ ':' :: o.rest

def text (o : Origin) : String := String.ofList o.chars

/-- The scheme as it is read. -/
def schemeName (o : Origin) : String := String.ofList (o.scheme.map Char.toLower)

variable (o : Origin)

theorem scheme_not_blank {c : Char} (h : isSchemePart c = true) : isEndBlank c = false := by
  have hblank : ∀ k ≤ 0x20, isSchemePart (Char.ofNat k) = false := by decide
  refine Bool.eq_false_iff.mpr fun hle => ?_
  have hc := hblank c.toNat (of_decide_eq_true hle)
  rw [Char.ofNat_toNat, h] at hc
  cases hc

theorem chars_not_blank : ∀ c ∈ o.chars, isEndBlank c = false := by
  intro c hc
  rcases List.mem_append.mp hc with hscheme | hrest
  · exact scheme_not_blank (o.parts c hscheme)
  · simp only [rest, List.mem_cons] at hrest
    rcases hrest with rfl | rfl | rfl | hauthority
    · rfl
    · rfl
    · rfl
    · exact (o.plain c hauthority).1

theorem readScheme?_append (cs : List Char) :
    readScheme? (o.scheme ++ ':' :: cs) = some (o.schemeName, cs) := by
  obtain ⟨first, hfirst, hletter⟩ := o.letter
  have hhead : (o.scheme ++ ':' :: cs).head? = some first := by
    rw [List.head?_append, hfirst]
    rfl
  have hdrop : (o.scheme ++ ':' :: cs).dropWhile isSchemePart = ':' :: cs := by
    rw [List.dropWhile_append_of_pos o.parts]
    rfl
  have htake : (o.scheme ++ ':' :: cs).takeWhile isSchemePart = o.scheme := by
    rw [List.takeWhile_append_of_pos o.parts]
    exact List.append_nil _
  unfold isSchemePart at hdrop htake
  unfold readScheme?
  simp only [hhead, hdrop, htake]
  exact if_pos hletter

/-- What is read of an address behind the scheme and its colon. -/
def readRest? (scheme : String) (cs : List Char) : Option Url :=
  if scheme == "file" then readFile? cs
  else if isWebScheme scheme then readAuthority? scheme (cs.dropWhile isAnySlash)
  else readOther? scheme cs

theorem parse_append (cs : List Char) :
    Url.parse (String.ofList (o.chars ++ cs)) = readRest? o.schemeName (o.rest ++ kept cs) := by
  have hcounted : countedChars (String.ofList (o.chars ++ cs)) = o.scheme ++ ':' :: (o.rest ++ kept cs) := by
    rw [countedChars_append (by simp [chars]) o.chars_not_blank, chars, List.append_assoc]
    rfl
  unfold Url.parse
  rw [hcounted, readScheme?_append]
  rfl

theorem dropWhile_slashes (cs : List Char) :
    (o.rest ++ cs).dropWhile isAnySlash = o.authority ++ cs := by
  obtain ⟨first, later, hfirst⟩ := List.exists_cons_of_ne_nil o.named
  have hnot := (o.plain first (hfirst ▸ List.mem_cons_self)).2.1
  unfold rest
  rw [hfirst, List.cons_append, List.dropWhile_cons, if_pos (by decide), List.cons_append,
    List.dropWhile_cons, if_pos (by decide), List.cons_append, List.dropWhile_cons, hnot]
  rfl

/-- The path of a file loses the empty segments in front. -/
def placed (scheme : String) (path : UrlPath) : UrlPath :=
  if scheme == "file" then filePath path else path

theorem readFile?_append {authority : List Char} (hnamed : authority ≠ [])
    (hplain : ∀ c ∈ authority, isAnySlash c = false ∧ endsPath c = false) {tail : List Char}
    (htail : tail = [] ∨ ∃ cs, tail = '/' :: cs) :
    readFile? ('/' :: '/' :: (authority ++ tail)) =
      (readFile? ('/' :: '/' :: authority)).map fun home =>
        { withPath true home tail with path := filePath (withPath true home tail).path } := by
  have hpass : ∀ c ∈ authority, (!(isAnySlash c || endsPath c)) = true := by
    intro c hc
    rw [(hplain c hc).1, (hplain c hc).2]
    rfl
  have htake : (authority ++ tail).takeWhile (fun c => !(isAnySlash c || endsPath c)) =
      authority := by
    rw [List.takeWhile_append_of_pos hpass]
    rcases htail with rfl | ⟨cs, rfl⟩ <;> exact List.append_nil _
  have hself : authority.takeWhile (fun c => !(isAnySlash c || endsPath c)) = authority :=
    List.takeWhile_eq_self_iff.mpr hpass
  have hslash : (isAnySlash '/' && isAnySlash '/') = true := by decide
  have hempty : ¬ authority.isEmpty = true := fun h => hnamed (List.isEmpty_iff.mp h)
  unfold readFile?
  simp only [if_pos hslash, htake, hself, if_neg hempty, List.drop_left, List.drop_length]
  cases Host.ofWebText? authority with
  | none => rfl
  | some host =>
    let u := { bare "file" with
      host := some (if host == Host.name "localhost" then Host.name "" else host) }
    exact congrArg (fun home => some { home with path := filePath home.path })
      (withPath_replace true u rfl (filePath (withPath true u []).path) tail).symm

/-- A path behind an origin stands in the place of the empty one. -/
theorem readRest?_append {tail : List Char} (htail : tail = [] ∨ ∃ cs, tail = '/' :: cs) :
    readRest? o.schemeName (o.rest ++ tail) =
      (readRest? o.schemeName o.rest).map fun home =>
        let u := withPath (isWebScheme o.schemeName) home tail
        { u with path := placed o.schemeName u.path } := by
  have hplain : ∀ c ∈ o.authority, isAnySlash c = false ∧ endsPath c = false :=
    fun c hc => (o.plain c hc).2
  have happend := readAuthority?_append o.schemeName hplain htail
  unfold readRest? placed
  by_cases hfile : (o.schemeName == "file") = true
  · simp only [if_pos hfile]
    rw [eq_of_beq hfile]
    exact readFile?_append o.named hplain htail
  · simp only [if_neg hfile]
    by_cases hweb : isWebScheme o.schemeName = true
    · have hself := o.dropWhile_slashes []
      rw [List.append_nil, List.append_nil] at hself
      simp only [if_pos hweb]
      rw [o.dropWhile_slashes, hself, happend, hweb]
    · simp only [if_neg hweb]
      exact happend

theorem readFile?_bare {authority : List Char}
    (hplain : ∀ c ∈ authority, isAnySlash c = false ∧ endsPath c = false) {home : Url}
    (h : readFile? ('/' :: '/' :: authority) = some home) :
    home.scheme = "file" ∧ home.query = none := by
  have hself : authority.takeWhile (fun c => !(isAnySlash c || endsPath c)) = authority := by
    refine List.takeWhile_eq_self_iff.mpr fun c hc => ?_
    rw [(hplain c hc).1, (hplain c hc).2]
    rfl
  have hslash : (isAnySlash '/' && isAnySlash '/') = true := by decide
  unfold readFile? at h
  simp only [if_pos hslash, hself, List.drop_length] at h
  split at h
  · obtain rfl := Option.some.inj h
    exact ⟨rfl, rfl⟩
  · obtain ⟨host, -, h⟩ := Option.bind_eq_some_iff.mp h
    obtain rfl := Option.some.inj h
    exact ⟨rfl, rfl⟩

theorem readRest?_bare {home : Url} (h : readRest? o.schemeName o.rest = some home) :
    home.scheme = o.schemeName ∧ home.query = none := by
  have hplain : ∀ c ∈ o.authority, isAnySlash c = false ∧ endsPath c = false :=
    fun c hc => (o.plain c hc).2
  unfold readRest? at h
  split at h
  · next hfile =>
    rw [eq_of_beq hfile]
    exact readFile?_bare hplain h
  · split at h
    · have hslashes := o.dropWhile_slashes []
      rw [List.append_nil, List.append_nil] at hslashes
      exact readAuthority?_bare _ hplain (hslashes ▸ h)
    · exact readAuthority?_bare _ hplain h

end Origin

/-- What an address has of the origin `home` where `cs` was put behind it and
a slash. -/
structure Reaches (home u : Url) (cs : List Char) : Prop where
  scheme : u.scheme = home.scheme
  host : u.host = home.host
  port : u.port = home.port
  path : u.path = Origin.placed home.scheme
    (.segments (segmentsOf (isWebScheme home.scheme) ('/' :: (kept cs).takeWhile (!endsPath ·))))
  alone : u.query = none ∧ u.fragment = none ↔ ∀ c ∈ kept cs, endsPath c = false

/-- **No path leads away from an origin.** -/
theorem Origin.reaches (o : Origin) {cs : List Char} {u : Url}
    (h : Url.parse (o.text ++ String.ofList ('/' :: cs)) = some u) :
    ∃ home, Url.parse o.text = some home ∧ home.scheme = o.schemeName ∧ Reaches home u cs := by
  have hkept : kept ('/' :: cs) = '/' :: kept cs := by
    have hslash : ∀ c ∈ ['/'], isEndBlank c = false := by
      intro c hc
      rw [List.mem_singleton.mp hc]
      rfl
    exact kept_append hslash cs
  have hself : Url.parse o.text = readRest? o.schemeName o.rest := by
    have hparse := o.parse_append []
    have hnothing : kept [] = [] := rfl
    rwa [hnothing, List.append_nil, List.append_nil] at hparse
  rw [text, ← String.ofList_append, o.parse_append, hkept,
    o.readRest?_append (.inr ⟨_, rfl⟩)] at h
  obtain ⟨home, hhome, rfl⟩ := Option.map_eq_some_iff.mp h
  obtain ⟨hscheme, hquery⟩ := o.readRest?_bare hhome
  obtain ⟨query, fragment, heq, halone⟩ :=
    withPath_eq (isWebScheme o.schemeName) home ('/' :: kept cs)
  refine ⟨home, hself.trans hhome, hscheme, ?_⟩
  simp only [heq]
  exact {
    scheme := rfl
    host := rfl
    port := rfl
    path := by
      rw [hscheme]
      rfl
    alone := by
      rw [halone hquery, List.forall_mem_cons]
      exact and_iff_right rfl }

end Runwatch.Net
