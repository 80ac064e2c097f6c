/-
Runwatch.Proofs.Json.Entries — the members of an object as its text has them.

The reader keeps of members with one name the last and orders them by name.
Here they are kept as they stand (`entries?`): a text writes an object if it
writes entries, and the object is made of them
(`parseBytes?_eq_object_iff`). A name that stands there once is found in
either (`get?_ofList`).

The reader that looks for one text and passes over the rest finds the same
(`Skim.textMember?_eq`), by induction on the entries: at each of them both
readers stand at the same place.

  §1 Entries                — and what the object is made of.
  §2 Looking for one member — `readMember_succ` is one entry, the others
                              follow from it.
-/
import Runwatch.Proofs.Json.Records
import Runwatch.Proofs.Json.Skimming

namespace Runwatch.Json

open Text.Utf8 (encode)

/-! ## §1 Entries -/

/-- Reads the name and the value of a member. -/
def readEntry (fuel depth : Nat) (cs : List Char) : Option ((String × Value) × List Char) :=
  match skipGap cs with
  | '"' :: rest =>
    match readString rest with
    | some (name, rest) =>
      match skipGap rest with
      | ':' :: rest => (readValue fuel depth rest).map fun (v, rest) => ((name, v), rest)
      | _ => none
    | none => none
  | _ => none

/-- Reads the members of an object one after the other. -/
def readEntries : Nat → Nat → List Char → Option (List (String × Value) × List Char)
  | 0, _, _ => none
  | fuel + 1, depth, cs =>
    match readEntry fuel depth cs with
    | none => none
    | some (entry, rest) =>
      match skipGap rest with
      | ',' :: rest =>
        (readEntries fuel depth rest).map fun (entries, rest) => (entry :: entries, rest)
      | '\x7d' :: rest => some ([entry], rest)
      | _ => none

/-- Reads the members of an object behind its opening brace. -/
def readInside (fuel depth : Nat) (cs : List Char) : Option (List (String × Value) × List Char) :=
  match skipGap cs with
  | '\x7d' :: rest => some ([], rest)
  | rest => readEntries fuel depth rest

/-- The members that the text of an object writes, in their order and with
all those of one name. -/
def entriesOf? (cs : List Char) : Option (List (String × Value)) :=
  match skipGap cs with
  | '\x7b' :: rest =>
    match readInside (2 * cs.length + 1) (maxNesting - 1) rest with
    | some (entries, rest) => if (skipGap rest).isEmpty then some entries else none
    | none => none
  | _ => none

/-- The members that a byte string writes. -/
def entries? (bytes : List UInt8) : Option (List (String × Value)) :=
  (Text.Utf8.decode? bytes).bind entriesOf?

/-- The reader takes one member, and the others behind a comma. -/
theorem readMembers_succ (fuel depth : Nat) (done : Members) (cs : List Char) :
    readMembers (fuel + 1) depth done cs =
      match readEntry fuel depth cs with
      | none => none
      | some ((name, v), rest) =>
        match skipGap rest with
        | ',' :: rest => readMembers fuel depth (Members.insert name v done) rest
        | '\x7d' :: rest => some (.object (Members.insert name v done), rest)
        | _ => none := by
  rw [readMembers]
  split
  · next behind hquote =>
    cases hname : readString behind with
    | none => simp only [readEntry, hquote, hname]
    | some named =>
      obtain ⟨name, colon⟩ := named
      dsimp only
      split
      · next text hcolon =>
        simp only [readEntry, hquote, hname, hcolon]
        cases readValue fuel depth text <;> rfl
      · next hne =>
        have hnone : readEntry fuel depth cs = none := by
          simp only [readEntry, hquote, hname]
        rw [hnone]
  · next hne =>
    have hnone : readEntry fuel depth cs = none := by
      unfold readEntry
      split
      · next heq => exact (hne _ heq).elim
      · rfl
    rw [hnone]

/-- Members are set one after the other. -/
theorem readMembers_eq (fuel depth : Nat) (done : Members) (cs : List Char) :
    readMembers fuel depth done cs = (readEntries fuel depth cs).map fun (entries, rest) =>
      (.object (entries.foldl (fun ms (name, v) => Members.insert name v ms) done), rest) := by
  induction fuel generalizing done cs with
  | zero => simp [readMembers, readEntries]
  | succ fuel ih =>
    rw [readMembers_succ, readEntries]
    cases readEntry fuel depth cs with
    | none => rfl
    | some first =>
      obtain ⟨⟨name, v⟩, rest⟩ := first
      dsimp only
      split
      · rw [ih, Option.map_map]
        rfl
      · rfl
      · rfl

/-- Elements make an array. -/
theorem exists_of_readElements {fuel depth : Nat} {done : List Value} {cs rest : List Char}
    {v : Value} (h : readElements fuel depth done cs = some (v, rest)) : ∃ vs, v = .array vs := by
  induction fuel generalizing done cs with
  | zero => simp [readElements] at h
  | succ fuel ih =>
    unfold readElements at h
    split at h
    · cases h
    · split at h
      · exact ih h
      · exact ⟨_, (Prod.mk.inj (Option.some.inj h)).1.symm⟩
      · cases h

/-- The text of an object begins with its brace. -/
theorem begins_of_object {fuel depth : Nat} {cs rest : List Char} {ms : Members}
    (h : readValue fuel depth cs = some (.object ms, rest)) :
    ∃ inner, skipGap cs = '\x7b' :: inner := by
  cases fuel with
  | zero => simp [readValue] at h
  | succ fuel =>
    unfold readValue at h
    split at h
    · cases h
    · cases h
    · cases h
    · obtain ⟨_, -, hv⟩ := Option.map_eq_some_iff.mp h
      cases hv
    · split at h
      · cases h
      · split at h
        · cases h
        · obtain ⟨_, hv⟩ := exists_of_readElements h
          cases hv
    · next inner heq => exact ⟨inner, heq⟩
    · obtain ⟨_, -, hv⟩ := Option.map_eq_some_iff.mp h
      cases hv

theorem readInside_brace {cs rest : List Char} (h : skipGap cs = '\x7d' :: rest)
    (fuel depth : Nat) : readInside fuel depth cs = some ([], rest) := by
  simp only [readInside, h]

theorem readInside_entries {cs : List Char} (h : ∀ rest, skipGap cs ≠ '\x7d' :: rest)
    (fuel depth : Nat) : readInside fuel depth cs = readEntries fuel depth (skipGap cs) := by
  unfold readInside
  split
  · next rest heq => exact absurd heq (h rest)
  · rfl

theorem readValue_object {cs inner : List Char} (h : skipGap cs = '\x7b' :: inner)
    (fuel depth : Nat) :
    readValue (fuel + 1) (depth + 1) cs = (readInside fuel depth inner).map
      fun (entries, rest) => (.object (Members.ofList entries), rest) := by
  by_cases hbrace : ∃ rest, skipGap inner = '\x7d' :: rest
  · obtain ⟨rest, hrest⟩ := hbrace
    rw [readInside_brace hrest, readValue]
    simp only [h, hrest]
    rfl
  · have hne : ∀ rest, skipGap inner ≠ '\x7d' :: rest := fun rest heq => hbrace ⟨rest, heq⟩
    rw [readInside_entries hne, readValue]
    simp only [h]
    rw [readMembers_eq]
    rfl

/-- A text writes an object if it writes members, and these are they. -/
theorem parseChars?_eq_object_iff {cs : List Char} {ms : Members} :
    parseChars? cs = some (.object ms) ↔
      ∃ entries, entriesOf? cs = some entries ∧ Members.ofList entries = ms := by
  by_cases hbrace : ∃ inner, skipGap cs = '\x7b' :: inner
  · obtain ⟨inner, hinner⟩ := hbrace
    have hread : readValue (2 * cs.length + 2) maxNesting cs = _ :=
      readValue_object hinner (2 * cs.length + 1) (maxNesting - 1)
    simp only [parseChars?, hread, entriesOf?, hinner]
    cases readInside (2 * cs.length + 1) (maxNesting - 1) inner with
    | none => simp
    | some read =>
      obtain ⟨entries, rest⟩ := read
      by_cases hrest : (skipGap rest).isEmpty = true <;> simp [hrest]
  · constructor
    · intro h
      unfold parseChars? at h
      split at h
      · next v rest hread =>
        split at h
        · obtain rfl := Option.some.inj h
          exact absurd (begins_of_object hread) hbrace
        · cases h
      · cases h
    · rintro ⟨entries, h, -⟩
      unfold entriesOf? at h
      split at h
      · next inner heq => exact absurd ⟨inner, heq⟩ hbrace
      · cases h

theorem parseBytes?_eq_object_iff {bytes : List UInt8} {ms : Members} :
    parseBytes? bytes = some (.object ms) ↔
      ∃ entries, entries? bytes = some entries ∧ Members.ofList entries = ms := by
  unfold parseBytes? entries?
  cases Text.Utf8.decode? bytes with
  | none => simp
  | some cs => exact parseChars?_eq_object_iff

/-- What is set under other names does not matter. -/
theorem get?_foldl_insert_absent {entries : List (String × Value)} {name : String}
    (h : name ∉ entries.map (·.1)) (done : Members) :
    Members.get? (entries.foldl (fun ms (name, v) => Members.insert name v ms) done) name
      = Members.get? done name := by
  induction entries generalizing done with
  | nil => rfl
  | cons entry entries ih =>
    obtain ⟨hfirst, hothers⟩ := not_or.mp (mt List.mem_cons.mpr h)
    rw [List.foldl_cons, ih hothers, Members.get?_insert, if_neg hfirst]

theorem lookup_entry (entry : String × Value) (entries : List (String × Value)) (name : String) :
    (entry :: entries).lookup name =
      if entry.1 = name then some entry.2 else entries.lookup name := by
  obtain ⟨key, v⟩ := entry
  rw [List.lookup_cons]
  by_cases hname : key = name
  · simp [hname]
  · simp [hname, beq_eq_false_iff_ne.mpr (Ne.symm hname)]

theorem get?_foldl_insert_once {entries : List (String × Value)} {name : String}
    (h : (entries.map (·.1)).count name ≤ 1) {done : Members}
    (hdone : Members.get? done name = none) :
    Members.get? (entries.foldl (fun ms (name, v) => Members.insert name v ms) done) name
      = entries.lookup name := by
  induction entries generalizing done with
  | nil => exact hdone
  | cons entry entries ih =>
    rw [List.map_cons, List.count_cons] at h
    rw [List.foldl_cons, lookup_entry]
    by_cases hname : entry.1 = name
    · rw [if_pos (beq_iff_eq.mpr hname)] at h
      have habsent : name ∉ entries.map (·.1) := List.count_eq_zero.mp (by omega)
      rw [get?_foldl_insert_absent habsent, Members.get?_insert, if_pos hname.symm, if_pos hname]
    · rw [if_neg hname]
      refine ih (by omega) ?_
      rw [Members.get?_insert, if_neg (Ne.symm hname), hdone]

/-- A member that stands in the text once is found in the object. -/
theorem get?_ofList {entries : List (String × Value)} {name : String}
    (h : (entries.map (·.1)).count name ≤ 1) :
    Members.get? (Members.ofList entries) name = entries.lookup name :=
  get?_foldl_insert_once h rfl

/-! ## §2 Looking for one member -/

/-- What a text or null says. -/
def Value.nullableText? : Value → Option (Option String)
  | .string s => some (some s)
  | .null => some none
  | _ => none

namespace Skim

/-- A text or null is read the same from the bytes, and nothing else is. -/
theorem readText?_encode {fuel depth : Nat} {cs rest : List Char} {v : Value}
    (h : readValue fuel depth cs = some (v, rest)) :
    readText? (encode cs) = v.nullableText?.map fun s => (s, encode rest) := by
  cases fuel with
  | zero => simp [readValue] at h
  | succ fuel =>
    unfold readValue at h
    unfold readText?
    rw [skipGapBytes_encode]
    split at h
    · next heq =>
      obtain ⟨rfl, rfl⟩ := Prod.mk.inj (Option.some.inj h)
      rw [heq]
      rfl
    · next heq =>
      obtain ⟨rfl, rfl⟩ := Prod.mk.inj (Option.some.inj h)
      rw [heq]
      rfl
    · next heq =>
      obtain ⟨rfl, rfl⟩ := Prod.mk.inj (Option.some.inj h)
      rw [heq]
      rfl
    · next inner heq =>
      obtain ⟨⟨text, rest'⟩, hs, hv⟩ := Option.map_eq_some_iff.mp h
      obtain ⟨rfl, rfl⟩ := Prod.mk.inj hv
      rw [heq]
      show (readText (encode inner)).map _ = _
      rw [readText_encode hs]
      rfl
    · next inner heq =>
      obtain ⟨vs, rfl⟩ : ∃ vs, v = .array vs := by
        split at h
        · cases h
        · split at h
          · exact ⟨[], (Prod.mk.inj (Option.some.inj h)).1.symm⟩
          · exact exists_of_readElements h
      rw [heq]
      rfl
    · next inner heq =>
      obtain ⟨ms, rfl⟩ := (passed_object depth (passed_values fuel).2.2 h).2
      rw [heq]
      rfl
    · obtain ⟨⟨number, rest'⟩, hnumber, hv⟩ := Option.map_eq_some_iff.mp h
      obtain ⟨rfl, rfl⟩ := Prod.mk.inj hv
      obtain ⟨b, bs, hbytes, hb⟩ := exists_of_readNumber hnumber
      rw [hbytes]
      -- Neither null nor a text begins with this byte.
      split
      · next heq =>
        obtain ⟨rfl, -⟩ := List.cons.inj heq
        exact absurd hb (by decide)
      · next heq =>
        obtain ⟨rfl, -⟩ := List.cons.inj heq
        exact absurd hb (by decide)
      · rfl

variable {fuel depth : Nat} {cs rest : List Char} {entry : String × Value}

/-- The name and the value of a member, read from the bytes: of a member of
another name the value is passed over. -/
theorem readMember_succ (h : readEntry fuel depth cs = some (entry, rest)) (name : String)
    (n : Nat) (seen : Option (Option String)) :
    readMember name (n + 1) seen (encode cs) =
      let value : Option (Option (Option String)) :=
        if entry.1 = name then
          if seen.isSome then none else entry.2.nullableText?.map some
        else some seen
      match value with
      | none => none
      | some seen =>
        match encode (skipGap rest) with
        | 0x2C :: rest => readMember name n seen rest
        | 0x7D :: rest => some (seen.join, rest)
        | _ => none := by
  unfold readEntry at h
  split at h
  · next behind hquote =>
    split at h
    · next key colon hname =>
      split at h
      · next text hcolon =>
        obtain ⟨⟨v, after⟩, hread, hv⟩ := Option.map_eq_some_iff.mp h
        obtain ⟨rfl, rfl⟩ := Prod.mk.inj hv
        have hopen : encode ('"' :: behind) = 0x22 :: encode behind := rfl
        have hsep : encode (':' :: text) = 0x3A :: encode text := rfl
        rw [readMember, skipGapBytes_encode, hquote, hopen]
        simp only [readText_encode hname, skipGapBytes_encode, hcolon, hsep,
          readText?_encode hread, skip_readValue hread, beq_iff_eq]
        split_ifs
        · rfl
        · cases v.nullableText? with
          | none => rfl
          | some s =>
            rw [← skipGapBytes_encode]
            rfl
        · rw [← skipGapBytes_encode]
          rfl
      · cases h
    · cases h
  · cases h

theorem length_readEntry (h : readEntry fuel depth cs = some (entry, rest)) :
    rest.length < cs.length := by
  have hgap := (passed_skipGap cs).length_le
  unfold readEntry at h
  split at h
  · next behind hquote =>
    rw [hquote] at hgap
    split at h
    · next key colon hname =>
      have hstring := (passed_readString hname).length_le
      have hcolons := (passed_skipGap colon).length_le
      split at h
      · next text hcolon =>
        obtain ⟨⟨v, after⟩, hread, hv⟩ := Option.map_eq_some_iff.mp h
        obtain ⟨rfl, rfl⟩ := Prod.mk.inj hv
        have hvalue := ((passed_values fuel).1 _ _ _ _ hread).length_le
        rw [hcolon, List.length_cons] at hcolons
        omega
      · cases h
    · cases h
  · cases h

/-- Where no member of that name stands, the value that was met stays. -/
theorem readMember_absent {entries : List (String × Value)}
    (h : readEntries fuel depth cs = some (entries, rest)) {name : String}
    (habsent : name ∉ entries.map (·.1)) {n : Nat} (hn : cs.length < n)
    (seen : Option (Option String)) :
    readMember name n seen (encode cs) = some (seen.join, encode rest) := by
  induction fuel generalizing cs entries n with
  | zero => simp [readEntries] at h
  | succ fuel ih =>
    obtain ⟨n, rfl⟩ := Nat.exists_eq_succ_of_ne_zero (Nat.ne_zero_of_lt hn)
    unfold readEntries at h
    split at h
    · cases h
    · next entry behind hentry =>
      have hlength := length_readEntry hentry
      have hgap := (passed_skipGap behind).length_le
      rw [readMember_succ hentry]
      split at h
      · next more heq =>
        obtain ⟨⟨others, rest'⟩, hmore, hall⟩ := Option.map_eq_some_iff.mp h
        obtain ⟨rfl, rfl⟩ := Prod.mk.inj hall
        obtain ⟨hfirst, hothers⟩ := not_or.mp (mt List.mem_cons.mpr habsent)
        have hcomma : encode (',' :: more) = 0x2C :: encode more := rfl
        rw [heq, List.length_cons] at hgap
        simp only [if_neg (Ne.symm hfirst), heq, hcomma]
        exact ih hmore hothers (by omega)
      · next heq =>
        obtain ⟨rfl, rfl⟩ := Prod.mk.inj (Option.some.inj h)
        have hfirst : entry.1 ≠ name := fun hname => habsent (by simp [hname])
        simp only [if_neg hfirst, heq]
        rfl
      · cases h

/-- The one member of that name is found, if it is a text or null. -/
theorem readMember_once {entries : List (String × Value)}
    (h : readEntries fuel depth cs = some (entries, rest)) {name : String} {v : Value}
    (hv : entries.lookup name = some v) (hone : (entries.map (·.1)).count name ≤ 1) {n : Nat}
    (hn : cs.length < n) :
    readMember name n none (encode cs) = v.nullableText?.map fun s => (s, encode rest) := by
  induction fuel generalizing cs entries n with
  | zero => simp [readEntries] at h
  | succ fuel ih =>
    obtain ⟨n, rfl⟩ := Nat.exists_eq_succ_of_ne_zero (Nat.ne_zero_of_lt hn)
    unfold readEntries at h
    split at h
    · cases h
    · next entry behind hentry =>
      have hlength := length_readEntry hentry
      have hgap := (passed_skipGap behind).length_le
      rw [readMember_succ hentry]
      split at h
      · next more heq =>
        obtain ⟨⟨others, rest'⟩, hmore, hall⟩ := Option.map_eq_some_iff.mp h
        obtain ⟨rfl, rfl⟩ := Prod.mk.inj hall
        have hcomma : encode (',' :: more) = 0x2C :: encode more := rfl
        rw [heq, List.length_cons] at hgap
        rw [lookup_entry] at hv
        rw [List.map_cons, List.count_cons] at hone
        by_cases hname : entry.1 = name
        · -- It is this one, and none of the others.
          rw [if_pos hname] at hv
          rw [if_pos (beq_iff_eq.mpr hname)] at hone
          obtain rfl := Option.some.inj hv
          have habsent : name ∉ others.map (·.1) := List.count_eq_zero.mp (by omega)
          simp only [if_pos hname, heq, hcomma]
          cases entry.2.nullableText? with
          | none => rfl
          | some s => exact readMember_absent hmore habsent (by omega) (some s)
        · rw [if_neg hname] at hv
          simp only [if_neg hname, heq, hcomma]
          exact ih hmore hv (by omega) (by omega)
      · next heq =>
        obtain ⟨rfl, rfl⟩ := Prod.mk.inj (Option.some.inj h)
        rw [lookup_entry] at hv
        split at hv
        · next hname =>
          obtain rfl := Option.some.inj hv
          simp only [if_pos hname, heq]
          cases entry.2.nullableText? <;> rfl
        · cases hv
      · cases h

/-- What members say under a name: a text or null, nothing if it is neither. -/
def textAmong? (name : String) (entries : List (String × Value)) : Option (Option String) :=
  match entries.lookup name with
  | some v => v.nullableText?
  | none => some none

theorem readMember_eq {entries : List (String × Value)}
    (h : readEntries fuel depth cs = some (entries, rest)) {name : String}
    (hone : (entries.map (·.1)).count name ≤ 1) {n : Nat} (hn : cs.length < n) :
    readMember name n none (encode cs) =
      (textAmong? name entries).map fun s => (s, encode rest) := by
  unfold textAmong?
  cases hv : entries.lookup name with
  | none => exact readMember_absent h (Members.get?_eq_none_iff.mp hv) hn none
  | some v => exact readMember_once h hv hone hn

theorem isEmpty_encode (cs : List Char) : (encode cs).isEmpty = cs.isEmpty := by
  cases cs with
  | nil => rfl
  | cons c cs => simp [Telemetry.encodeChar_ne_nil]

/-- What is looked for in the text of an object, if there is at most one of
that name. -/
theorem textMember?_eq {bytes : List UInt8} {entries : List (String × Value)} {name : String}
    (h : entries? bytes = some entries) (hone : (entries.map (·.1)).count name ≤ 1) :
    textMember? name bytes = textAmong? name entries := by
  obtain ⟨cs, hdecode, hcs⟩ := Option.bind_eq_some_iff.mp h
  obtain rfl := Text.Utf8.encode_of_decode? hdecode
  unfold entriesOf? at hcs
  split at hcs
  · next inner hbrace =>
    have hopen : encode ('\x7b' :: inner) = 0x7B :: encode inner := rfl
    have hlength := length_le_encode cs
    have hgap := (passed_skipGap cs).length_le
    have hinner := (passed_skipGap inner).length_le
    rw [hbrace, List.length_cons] at hgap
    unfold textMember?
    simp only [skipGapBytes_encode, hbrace, hopen]
    unfold readInside at hcs
    split at hcs
    · next read rest hread =>
      split at hcs
      · next hblank =>
        obtain rfl := Option.some.inj hcs
        have hend : (encode (skipGap rest)).isEmpty = true := (isEmpty_encode _).trans hblank
        split at hread
        · next more heq =>
          obtain ⟨rfl, rfl⟩ := Prod.mk.inj (Option.some.inj hread)
          have hclose : encode ('\x7d' :: more) = 0x7D :: encode more := rfl
          simp only [heq, hclose, skipGapBytes_encode, hend]
          rfl
        · next hne =>
          split
          · next heq =>
            obtain ⟨_, hclose, -⟩ := begins_of_encode (x := '\x7d') (by decide) heq
            exact (hne _ hclose).elim
          · rw [readMember_eq hread hone (by omega)]
            cases textAmong? name read with
            | none => rfl
            | some s =>
              simp only [Option.map_some, skipGapBytes_encode, hend]
              rfl
      · cases hcs
    · cases hcs
  · cases hcs

end Skim

end Runwatch.Json
