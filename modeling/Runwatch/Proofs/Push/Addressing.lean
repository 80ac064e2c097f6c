/-
Runwatch.Proofs.Push.Addressing — where the request for a token goes.

The token is the end of the request's path, as it is. Whatever it is, the
request goes to the host of the base address. But only a token that an address
holds as it is (`Faithful`) is asked for under its own name: one with a
question mark or a hash ends the path early, dot segments lead out of it, and
blanks, line ends, backslashes and escapes are read as something else.

  §1 Texts    — texts of as many bytes.
  §2 Paths    — what is read of a path behind an origin (`Reaches.bytes_iff`).
  §3 Tokens   — a token behind the rest of its path.
  §4 Requests — the address of a request (`token_stays_at_origin`).
-/
import Runwatch.Proofs.Net.Origin
import Runwatch.Push.Exchange

namespace Runwatch.Net

open Text.Utf8 (encode encodeChar encode_cons)

/-! ## §1 Texts -/

theorem encode_injective {cs ds : List Char} (h : encode cs = encode ds) : cs = ds := by
  have hdecoded := Text.Utf8.decode?_encode cs
  rw [h, Text.Utf8.decode?_encode] at hdecoded
  exact (Option.some.inj hdecoded).symm

theorem length_encode_le {cs ds : List Char} (h : List.Sublist cs ds) :
    (encode cs).length ≤ (encode ds).length := by
  induction h with
  | slnil => exact Nat.le_refl _
  | cons c _ ih =>
    rw [encode_cons, List.length_append]
    exact Nat.le_trans ih (Nat.le_add_left _ _)
  | cons_cons c _ ih =>
    rw [encode_cons, encode_cons, List.length_append, List.length_append]
    exact Nat.add_le_add_left ih _

/-- A text loses bytes with each character. -/
theorem eq_of_sublist {cs ds : List Char} (h : List.Sublist cs ds)
    (hlength : (encode ds).length ≤ (encode cs).length) : cs = ds := by
  induction h with
  | slnil => rfl
  | cons c hrest _ =>
    have hpos := length_encodeChar_pos c
    have hle := length_encode_le hrest
    rw [encode_cons, List.length_append] at hlength
    omega
  | cons_cons c _ ih =>
    rw [encode_cons, encode_cons, List.length_append, List.length_append] at hlength
    rw [ih (Nat.le_of_add_le_add_left hlength)]

/-! ## §2 Paths -/

/-- A text that an address holds as it is: it ends in no blank and has no tabs
and no line ends, no mark of a query or a fragment, no segment that is resolved
and no escape, and with a scheme of the web no backslash. -/
structure Faithful (web : Bool) (cs : List Char) : Prop where
  counted : ∀ c ∈ cs, isCounted c = true
  ending : ∀ c, cs.getLast? = some c → isEndBlank c = false
  inPath : ∀ c ∈ cs, endsPath c = false
  upright : web = true → '\\' ∉ cs
  noDots : ∀ part ∈ cs.splitOn '/', isDot part = false
  noEscape : ¬ HasEscape cs

/-- A path with a first segment is that of a file, too. -/
theorem filePath_of_head {name : String} {names : List String} (h : name.isEmpty = false) :
    filePath (.segments (name :: names)) = .segments (name :: names) := by
  unfold filePath
  simp only [List.dropWhile_cons, h, Bool.false_eq_true, if_false]

theorem isEmpty_written {segment : List Char} (h : segment ≠ []) :
    (written segment).isEmpty = false := by
  have hread := percentDecode_ne_nil h
  rw [← spares_pathSet.percentDecode_percentEncode] at hread
  have hne : percentEncode pathSet segment ≠ [] := by
    intro hnil
    rw [hnil] at hread
    exact hread rfl
  unfold written
  simpa using hne

theorem segmentsOf_of_noDots {web : Bool} {cs : List Char}
    (h : ∀ part ∈ (turned web cs).splitOn '/', isDot part = false) :
    segmentsOf web ('/' :: cs) = ((turned web cs).splitOn '/').map written := by
  rw [segmentsOf_slash]
  rcases resolveRaw_or [] ((turned web cs).splitOn '/') with ⟨-, heq⟩ | ⟨⟨part, hpart, hdot⟩, -⟩
  · rw [heq]
    rfl
  · exact absurd ((h part hpart).symm.trans hdot) nofun

theorem placed_of_noDots (scheme : String) {web : Bool} {c : Char} {rest : List Char}
    (hslash : c ≠ '/') (hback : c ≠ '\\')
    (h : ∀ part ∈ (turned web (c :: rest)).splitOn '/', isDot part = false) :
    Origin.placed scheme (.segments (segmentsOf web ('/' :: c :: rest))) =
      .segments (segmentsOf web ('/' :: c :: rest)) := by
  have hturned : turned web (c :: rest) = c :: turned web rest := by
    unfold turned
    split
    · rw [List.map_cons, if_neg (by simpa using hback)]
    · rfl
  unfold Origin.placed
  split
  · obtain ⟨part, parts, hparts⟩ :=
      List.exists_cons_of_ne_nil (List.splitOn_ne_nil '/' (turned web rest))
    have hcut : (c :: turned web rest).splitOn '/' = (c :: part) :: parts := by
      rw [List.splitOn_cons_eq_if_modifyHead, hparts]
      exact if_neg (by simpa using hslash)
    rw [segmentsOf_of_noDots h, hturned, hcut, List.map_cons]
    exact filePath_of_head (isEmpty_written (List.cons_ne_nil c part))
  · rfl

theorem length_bytes_placed (scheme : String) (names : List String) :
    (Origin.placed scheme (.segments names)).bytes.length ≤ (UrlPath.segments names).bytes.length ∨
      (Origin.placed scheme (.segments names)).bytes.length = 1 := by
  unfold Origin.placed
  split
  · exact length_bytes_filePath names
  · exact .inl (Nat.le_refl _)

theorem length_encode_slash (cs : List Char) :
    (encode ('/' :: cs)).length = 1 + (encode cs).length := by
  rw [encode_cons, List.length_append]
  rfl

section

variable {scheme : String} {web : Bool} {c : Char} {rest : List Char}

/-- Nothing but the text itself is read as the text: whatever is left out of it
or resolved in it costs bytes. -/
theorem eq_of_bytes_placed (hslash : c ≠ '/') (hback : c ≠ '\\') {kept : List Char}
    (hsub : List.Sublist kept (c :: rest))
    (h : (Origin.placed scheme (.segments (segmentsOf web ('/' :: kept)))).bytes =
      encode ('/' :: c :: rest)) :
    kept = c :: rest ∧ (web = true → '\\' ∉ c :: rest) ∧
      (∀ part ∈ (c :: rest).splitOn '/', isDot part = false) ∧ ¬ HasEscape (c :: rest) := by
  have hle : (encode ('/' :: c :: rest)).length ≤
      (UrlPath.segments (segmentsOf web ('/' :: kept))).bytes.length := by
    rcases length_bytes_placed scheme (segmentsOf web ('/' :: kept)) with hle | hone
    · rwa [h] at hle
    · have hpos := length_encodeChar_pos c
      rw [h, length_encode_slash, encode_cons, List.length_append] at hone
      omega
  rcases bytes_segmentsOf_or web kept with ⟨hdots, hescape, hread⟩ | ⟨-, hlt⟩
  · have hkept : kept = c :: rest := by
      refine eq_of_sublist hsub ?_
      rw [hread, length_encode_slash, length_encode_slash, length_encode_turned] at hle
      exact Nat.le_of_add_le_add_left hle
    subst hkept
    have hturned : turned web (c :: rest) = c :: rest := by
      rw [placed_of_noDots scheme hslash hback hdots, hread] at h
      exact (List.cons.inj (encode_injective h)).2
    rw [hturned] at hdots hescape
    exact ⟨rfl, turned_eq_self_iff.mp hturned, hdots, hescape⟩
  · have hless := length_encode_le hsub
    rw [length_encode_slash] at hlt hle
    omega

theorem bytes_placed (hslash : c ≠ '/') (hback : c ≠ '\\')
    (hupright : web = true → '\\' ∉ c :: rest)
    (hdots : ∀ part ∈ (c :: rest).splitOn '/', isDot part = false)
    (hescape : ¬ HasEscape (c :: rest)) :
    (Origin.placed scheme (.segments (segmentsOf web ('/' :: c :: rest)))).bytes =
      encode ('/' :: c :: rest) := by
  have hturned : turned web (c :: rest) = c :: rest := turned_eq_self_iff.mpr hupright
  rw [placed_of_noDots scheme hslash hback (hturned.symm ▸ hdots)]
  rcases bytes_segmentsOf_or web (c :: rest) with ⟨-, -, hread⟩ | ⟨hbad, -⟩
  · rw [hread, hturned]
  · rw [hturned] at hbad
    rcases hbad with ⟨part, hpart, hdot⟩ | hbad
    · exact absurd ((hdots part hpart).symm.trans hdot) nofun
    · exact absurd hbad hescape

end

/-- **A path that is read as it stands.** -/
theorem Reaches.bytes_iff {home u : Url} {c : Char} {rest : List Char}
    (h : Reaches home u (c :: rest)) (hslash : c ≠ '/') (hback : c ≠ '\\') :
    (u.query = none ∧ u.fragment = none ∧ u.path.bytes = encode ('/' :: c :: rest)) ↔
      Faithful (isWebScheme home.scheme) (c :: rest) := by
  constructor
  · rintro ⟨-, -, hbytes⟩
    rw [h.path] at hbytes
    have hpath := List.takeWhile_sublist (l := kept (c :: rest)) (!endsPath ·)
    obtain ⟨hwhole, hupright, hdots, hescape⟩ :=
      eq_of_bytes_placed hslash hback (hpath.trans (kept_sublist _)) hbytes
    have hkept : kept (c :: rest) = c :: rest := by
      have hlength := hpath.length_le
      rw [hwhole] at hlength
      exact (kept_sublist _).eq_of_length_le hlength
    obtain ⟨hcounted, hending⟩ := kept_eq_self_iff.mp hkept
    rw [hkept, List.takeWhile_eq_self_iff] at hwhole
    exact {
      counted := hcounted
      ending := hending
      inPath := fun d hd => by simpa using hwhole d hd
      upright := hupright
      noDots := hdots
      noEscape := hescape }
  · intro hf
    have hkept : kept (c :: rest) = c :: rest := kept_eq_self_iff.mpr ⟨hf.counted, hf.ending⟩
    have hwhole : (c :: rest).takeWhile (!endsPath ·) = c :: rest := by
      rw [List.takeWhile_eq_self_iff]
      intro d hd
      rw [hf.inPath d hd]
      rfl
    obtain ⟨hquery, hfragment⟩ := h.alone.mpr (hkept.symm ▸ hf.inPath)
    refine ⟨hquery, hfragment, ?_⟩
    rw [h.path, hkept, hwhole]
    exact bytes_placed hslash hback hf.upright hf.noDots hf.noEscape

/-! ## §3 Tokens -/

/-- What stands in front of the token, behind the first slash. -/
def devicePath : List Char := "3/device/".toList

theorem splitOn_devicePath (token : List Char) :
    (devicePath ++ token).splitOn '/' = ['3'] :: "device".toList :: token.splitOn '/' := by
  have hfirst : devicePath ++ token = ['3'] ++ '/' :: ("device".toList ++ '/' :: token) := rfl
  rw [hfirst, List.splitOn_append_cons_self_of_not_mem (by decide),
    List.splitOn_append_cons_self_of_not_mem (by decide)]

/-- No percent sign in front of a text makes an escape of it. -/
theorem hasEscape_append {front : List Char} (h : '%' ∉ front) (cs : List Char) :
    HasEscape (front ++ cs) ↔ HasEscape cs := by
  induction front with
  | nil => exact Iff.rfl
  | cons c front ih =>
    obtain ⟨hc, hfront⟩ := List.ne_and_not_mem_of_not_mem_cons h
    rw [List.cons_append, hasEscape_cons, ih hfront]
    exact or_iff_right fun hsign => hc hsign.1.symm

theorem ending_append {front : List Char} {last : Char} (h : front.getLast? = some last)
    (hlast : isEndBlank last = false) (cs : List Char) :
    (∀ c, (front ++ cs).getLast? = some c → isEndBlank c = false) ↔
      ∀ c, cs.getLast? = some c → isEndBlank c = false := by
  rw [List.getLast?_append]
  cases hcs : cs.getLast? with
  | none => simp [h, hlast]
  | some d => simp

/-- The rest of the path hides nothing of a token. -/
theorem faithful_devicePath {web : Bool} {token : List Char} :
    Faithful web (devicePath ++ token) ↔ Faithful web token := by
  have hlast : devicePath.getLast? = some '/' := rfl
  have hsign : '%' ∉ devicePath := by decide
  have hending := ending_append hlast rfl token
  have hescape := hasEscape_append hsign token
  constructor
  · intro h
    have hdots := h.noDots
    rw [splitOn_devicePath] at hdots
    exact {
      counted := fun c hc => h.counted c (List.mem_append_right _ hc)
      ending := hending.mp h.ending
      inPath := fun c hc => h.inPath c (List.mem_append_right _ hc)
      upright := fun hweb hc => h.upright hweb (List.mem_append_right _ hc)
      noDots := fun part hpart =>
        hdots part (List.mem_cons_of_mem _ (List.mem_cons_of_mem _ hpart))
      noEscape := fun hbad => h.noEscape (hescape.mpr hbad) }
  · intro h
    have hcounted : ∀ c ∈ devicePath, isCounted c = true := List.all_eq_true.mp (by decide)
    have hends : devicePath.any endsPath = false := by decide
    have hpath : ∀ c ∈ devicePath, endsPath c = false := fun c hc =>
      Bool.eq_false_iff.mpr (List.any_eq_false.mp hends c hc)
    have hback : '\\' ∉ devicePath := by decide
    exact {
      counted := List.forall_mem_append.mpr ⟨hcounted, h.counted⟩
      ending := hending.mpr h.ending
      inPath := List.forall_mem_append.mpr ⟨hpath, h.inPath⟩
      upright := by
        intro hweb hc
        rcases List.mem_append.mp hc with hc | hc
        · exact hback hc
        · exact h.upright hweb hc
      noDots := by
        rw [splitOn_devicePath]
        exact List.forall_mem_cons.mpr
          ⟨by decide, List.forall_mem_cons.mpr ⟨by decide, h.noDots⟩⟩
      noEscape := fun hbad => h.noEscape (hescape.mp hbad) }

end Runwatch.Net

namespace Runwatch.Push

open Net (Faithful HttpRequest Origin Reaches Url devicePath endsPath isAnySlash isEndBlank
  isWebScheme)

/-! ## §4 Requests -/

/-- A request that is built goes to the address that was read. -/
theorem url_post {address : String} {headers : List (String × String)} {body : String}
    {q : HttpRequest} (h : HttpRequest.post address headers body = .ok q) :
    ∃ u, Url.parse address = some u ∧ q.url = u.withoutUser.1 := by
  unfold HttpRequest.post at h
  split at h
  · cases h
  · next u hparse =>
    split at h
    · cases h
    · split at h
      · cases h
      · obtain rfl := Except.ok.inj h
        exact ⟨u, hparse, rfl⟩

/-- A user name does not tell where an address leads. -/
theorem withoutUser_eq (u : Url) : ∃ username password,
    u.withoutUser.1 = { u with username := username, password := password } := by
  unfold Url.withoutUser
  split
  · exact ⟨"", none, rfl⟩
  · exact ⟨u.username, u.password, rfl⟩

theorem toList_path (r : Request) : r.path.toList = '/' :: (devicePath ++ r.token.toList) := by
  unfold Request.path
  rw [String.toList_append]
  rfl

/-- The address of a request is that of its token, put behind the origin. -/
theorem reaches_http {o : Origin} {r : Request} {q : HttpRequest} (h : r.http o.text = .ok q) :
    ∃ home, Url.parse o.text = some home ∧
      Reaches home q.url (devicePath ++ r.token.toList) := by
  have hpost : HttpRequest.post (o.text ++ r.path) r.headers r.body = .ok q := by
    unfold Request.http at h
    split at h
    · next q' hpost =>
      obtain rfl := Except.ok.inj h
      exact hpost
    · cases h
  obtain ⟨u, hparse, hurl⟩ := url_post hpost
  rw [← String.ofList_toList (s := r.path), toList_path] at hparse
  obtain ⟨home, hhome, -, hreaches⟩ := o.reaches hparse
  obtain ⟨username, password, heq⟩ := withoutUser_eq u
  refine ⟨home, hhome, ?_⟩
  rw [hurl, heq]
  exact {
    scheme := hreaches.scheme
    host := hreaches.host
    port := hreaches.port
    path := hreaches.path
    alone := hreaches.alone }

/-- Where the request for a token goes, behind an origin. -/
structure Addressed (o : Origin) (r : Request) (q : HttpRequest) : Prop where
  /-- It stays at the origin. -/
  origin : ∃ home, Url.parse o.text = some home ∧ q.url.scheme = home.scheme ∧
    q.url.host = home.host ∧ q.url.port = home.port
  /-- It asks for the token, and for nothing else. -/
  own : (q.url.query = none ∧ q.url.fragment = none ∧ q.url.path.bytes = Text.Utf8.bytes r.path) ↔
    Faithful (isWebScheme q.url.scheme) r.token.toList
  /-- No other such token is asked for there. -/
  sole : Faithful (isWebScheme q.url.scheme) r.token.toList →
    ∀ (r' : Request) (q' : HttpRequest), r'.http o.text = .ok q' → q'.url = q.url →
      Faithful (isWebScheme q.url.scheme) r'.token.toList → r'.token = r.token

/-- **A token stays at its origin.** -/
theorem token_stays_at_origin (o : Origin) (r : Request) (q : HttpRequest)
    (h : r.http o.text = .ok q) : Addressed o r q := by
  have hown {r : Request} {q : HttpRequest} (h : r.http o.text = .ok q) :
      (q.url.query = none ∧ q.url.fragment = none ∧
        q.url.path.bytes = Text.Utf8.bytes r.path) ↔
      Faithful (isWebScheme q.url.scheme) r.token.toList := by
    obtain ⟨home, -, hreaches⟩ := reaches_http h
    unfold Text.Utf8.bytes
    rw [toList_path, hreaches.scheme, ← Net.faithful_devicePath]
    exact hreaches.bytes_iff (by decide) (by decide)
  obtain ⟨home, hhome, hreaches⟩ := reaches_http h
  refine ⟨⟨home, hhome, hreaches.scheme, hreaches.host, hreaches.port⟩, hown h, ?sole⟩
  intro hfaithful r' q' h' hurl hfaithful'
  obtain ⟨-, -, hbytes⟩ := (hown h).mpr hfaithful
  obtain ⟨-, -, hbytes'⟩ := (hown h').mpr (hurl.symm ▸ hfaithful')
  rw [hurl, hbytes] at hbytes'
  have hpath := Net.encode_injective hbytes'
  rw [toList_path, toList_path] at hpath
  have htoken := List.append_cancel_left (List.cons.inj hpath).2
  exact (String.toList_inj.mp htoken).symm

/-- A service on this machine. -/
def localService : Origin where
  scheme := "http".toList
  authority := "127.0.0.1:8443".toList
  letter := ⟨'h', rfl, by decide⟩
  parts := List.all_eq_true.mp (by decide)
  named := by decide
  plain := by
    have hall : ("127.0.0.1:8443".toList.all fun c =>
        !(isEndBlank c || isAnySlash c || endsPath c)) = true := by decide
    intro c hc
    simpa [and_assoc] using List.all_eq_true.mp hall c hc

/-- An empty notice for a token. -/
def noticeTo (token : String) : Request := ⟨token, "h.c.s", "dev.app", "\x7b\"aps\":\x7b\x7d\x7d"⟩

/-- Where it goes at that service. -/
def addressOf (token : String) : Option Url :=
  ((noticeTo token).http localService.text).toOption.map (·.url)

/-- A question mark ends the path, and a segment that stands for its parent
lets another one go, so that two tokens are asked for at one address. -/
theorem token_leads_off_its_path :
    addressOf "a?b" = some
      { scheme := "http", username := "", password := none, host := some (.v4 2130706433)
        port := some 8443, path := .segments ["3", "device", "a"], query := some "b"
        fragment := none } ∧
    addressOf "x/../abc" = addressOf "abc" := by
  decide +kernel

/-- A token of plain digits is asked for as it is. -/
theorem plainToken_addressed :
    ∃ q, (noticeTo "00fc13ad").http localService.text = .ok q ∧
      Addressed localService (noticeTo "00fc13ad") q ∧
      q.url.query = none ∧ q.url.fragment = none ∧
      q.url.path.bytes = Text.Utf8.bytes "/3/device/00fc13ad" := by
  have hbuilt : (addressOf "00fc13ad").isSome = true := by decide +kernel
  unfold addressOf at hbuilt
  cases hq : (noticeTo "00fc13ad").http localService.text with
  | error e =>
    rw [hq] at hbuilt
    cases hbuilt
  | ok q =>
    have haddressed := token_stays_at_origin localService _ q hq
    have hsign : '%' ∉ "00fc13ad".toList := by decide
    have hends : "00fc13ad".toList.any endsPath = false := by decide
    have hfaithful : Faithful (isWebScheme q.url.scheme) "00fc13ad".toList := {
      counted := List.all_eq_true.mp (by decide)
      ending := by
        intro c hc
        obtain rfl := Option.some.inj hc
        rfl
      inPath := fun c hc => Bool.eq_false_iff.mpr (List.any_eq_false.mp hends c hc)
      upright := fun _ => by decide
      noDots := by decide
      noEscape := fun h => Net.not_hasEscape_nil ((Net.hasEscape_append hsign []).mp h) }
    exact ⟨q, rfl, haddressed, haddressed.own.mpr hfaithful⟩

end Runwatch.Push
