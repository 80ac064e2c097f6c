/-
Runwatch.Proofs.Json.Records — records are read out of what is written for
them.

A record is written with its members in the order of its fields, and a JSON
value is kept with the members of every object in the order of their names.
So what a reader finds is the sorted value. `Reads d v a` says that `d` finds
`a` in it; it is shown of a record from what is shown of its fields.

  §1 Order   — values that are in order stay as they are (`InOrder`), sorted
               members are found as they were (`get?_sortedMembers`), and
               setting them one after the other sorts them (`setSorted_nil`).
  §2 Values  — what is read out of words, texts and null (`Reads`).
  §3 Records — `record_reads`, where the values of a record that is read come
               from (`exists_source`), and when a record is read at all
               (`record_object`).
  §4 Tags    — `tagged_reads`.
-/
import Mathlib.Data.List.Forall2
import Mathlib.Data.List.Sort
import Runwatch.Json.Decode

namespace Runwatch.Json

/-! ## §1 Order -/

/-- A value in which the members of every object stand in the order of their
names, each name once. -/
inductive InOrder : Value → Prop where
  | null : InOrder .null
  | bool (b : Bool) : InOrder (.bool b)
  | number (n : Number) : InOrder (.number n)
  | string (s : String) : InOrder (.string s)
  | array {vs : List Value} (elements : ∀ v ∈ vs, InOrder v) : InOrder (.array vs)
  | object {ms : Members} (inOrder : ms.Pairwise fun m m' => m.1 < m'.1)
      (members : ∀ m ∈ ms, InOrder m.2) : InOrder (.object ms)

namespace Members

theorem get?_cons (name n : String) (v : Value) (ms : Members) :
    get? ((n, v) :: ms) name = if name = n then some v else get? ms name := by
  by_cases h : name = n
  · simp [get?, h]
  · have hne : (name == n) = false := beq_eq_false_iff_ne.mpr h
    simp [get?, List.lookup_cons, hne, h]

theorem get?_eq_none_iff {ms : Members} {name : String} :
    get? ms name = none ↔ name ∉ ms.map (·.1) := by
  induction ms with
  | nil => simp [get?]
  | cons m ms ih =>
    rw [get?_cons, List.map_cons, List.mem_cons, not_or, ← ih]
    by_cases h : name = m.1 <;> simp [h]

/-- A member that is set is found, and any other one as before. -/
theorem get?_insert (name other : String) (v : Value) (ms : Members) :
    get? (insert name v ms) other = if other = name then some v else get? ms other := by
  induction ms with
  | nil => exact get?_cons other name v []
  | cons m ms ih =>
    obtain ⟨n, w⟩ := m
    rw [insert]
    split
    · rw [get?_cons]
    · split
      case isTrue heq =>
        obtain rfl := eq_of_beq heq
        simp only [get?_cons]
        split <;> rfl
      case isFalse hne =>
        have hne : name ≠ n := fun heq => hne (beq_iff_eq.mpr heq)
        rw [get?_cons, ih, get?_cons]
        by_cases hother : other = n
        · simp [hother, hne.symm]
        · simp [hother]

theorem mem_of_mem_insert {name : String} {v : Value} {ms : Members} {m : String × Value}
    (h : m ∈ insert name v ms) : m = (name, v) ∨ m ∈ ms := by
  induction ms with
  | nil => exact .inl (List.mem_singleton.mp h)
  | cons first ms ih =>
    obtain ⟨n, w⟩ := first
    rw [insert] at h
    split at h
    · exact List.mem_cons.mp h
    · split at h
      · exact (List.mem_cons.mp h).imp_right (List.mem_cons_of_mem _)
      · rcases List.mem_cons.mp h with rfl | h
        · exact .inr List.mem_cons_self
        · exact (ih h).imp_right (List.mem_cons_of_mem _)

/-- A member is set in its place by name. -/
theorem pairwise_insert {name : String} {v : Value} {ms : Members}
    (h : ms.Pairwise fun m m' => m.1 < m'.1) :
    (insert name v ms).Pairwise fun m m' => m.1 < m'.1 := by
  induction ms with
  | nil => exact List.pairwise_singleton _ _
  | cons m ms ih =>
    obtain ⟨n, w⟩ := m
    obtain ⟨hfirst, hrest⟩ := List.pairwise_cons.mp h
    rw [insert]
    split
    case isTrue hlt =>
      refine List.pairwise_cons.mpr ⟨fun m hm => ?_, h⟩
      rcases List.mem_cons.mp hm with rfl | hm
      · exact hlt
      · exact String.lt_trans hlt (hfirst m hm)
    case isFalse hnot =>
      split
      case isTrue heq =>
        obtain rfl := eq_of_beq heq
        exact List.pairwise_cons.mpr ⟨hfirst, hrest⟩
      case isFalse hne =>
        have hlt : n < name := by
          refine String.not_le.mp fun hle => hne (beq_iff_eq.mpr ?_)
          exact String.le_antisymm hle (String.not_lt.mp hnot)
        refine List.pairwise_cons.mpr ⟨fun m hm => ?_, ih hrest⟩
        rcases mem_of_mem_insert hm with rfl | hm
        · exact hlt
        · exact hfirst m hm

/-- A member whose name comes before all others is put in front. -/
theorem insert_of_first {name : String} {v : Value} {ms : Members}
    (h : ∀ m ∈ ms, name < m.1) : insert name v ms = (name, v) :: ms := by
  cases ms with
  | nil => rfl
  | cons m ms => exact if_pos (h m List.mem_cons_self)

theorem mem_of_get? {ms : Members} {name : String} {v : Value} (h : get? ms name = some v) :
    (name, v) ∈ ms := by
  obtain ⟨before, after, rfl, -⟩ := List.lookup_eq_some_iff.mp h
  simp

theorem mem_iff_get? {ms : Members} (h : ms.Pairwise fun m m' => m.1 < m'.1)
    {m : String × Value} : m ∈ ms ↔ get? ms m.1 = some m.2 := by
  refine ⟨fun hm => ?_, mem_of_get?⟩
  induction ms with
  | nil => exact nomatch hm
  | cons first ms ih =>
    obtain ⟨hfirst, hrest⟩ := List.pairwise_cons.mp h
    obtain ⟨n, w⟩ := first
    rw [get?_cons]
    rcases List.mem_cons.mp hm with rfl | hm
    · exact if_pos rfl
    · have hlt : n < m.1 := hfirst m hm
      have hne : m.1 ≠ n := fun heq => String.lt_irrefl n (heq ▸ hlt)
      rw [if_neg hne]
      exact ih hrest hm

/-- Members in order are the same if the same is found in them. -/
theorem eq_of_get? {ms ns : Members} (hms : ms.Pairwise fun m m' => m.1 < m'.1)
    (hns : ns.Pairwise fun m m' => m.1 < m'.1) (h : ∀ name, get? ms name = get? ns name) :
    ms = ns := by
  have : Std.Irrefl fun m m' : String × Value => m.1 < m'.1 := ⟨fun m => String.lt_irrefl m.1⟩
  have : Std.Antisymm fun m m' : String × Value => m.1 < m'.1 :=
    ⟨fun _ _ hlt hlt' => absurd hlt' (String.lt_asymm hlt)⟩
  refine hms.eq_of_mem_iff hns fun m => ?_
  rw [mem_iff_get? hms, mem_iff_get? hns, h]

end Members

mutual

/-- Sorting puts in order. -/
theorem inOrder_sorted : (v : Value) → InOrder v.sorted
  | .null => .null
  | .bool b => .bool b
  | .number n => .number n
  | .string s => .string s
  | .array vs => .array (inOrder_sortedElements vs)
  | .object ms => .object (inOrder_sortedMembers ms).1 (inOrder_sortedMembers ms).2

theorem inOrder_sortedElements : (vs : List Value) → ∀ w ∈ sortedElements vs, InOrder w
  | [] => nofun
  | v :: vs => List.forall_mem_cons.mpr ⟨inOrder_sorted v, inOrder_sortedElements vs⟩

theorem inOrder_sortedMembers : (ms : List (String × Value)) →
    ((sortedMembers ms).Pairwise fun m m' => m.1 < m'.1) ∧ ∀ m ∈ sortedMembers ms, InOrder m.2
  | [] => ⟨.nil, nofun⟩
  | (name, v) :: ms => by
    obtain ⟨hordered, hvalues⟩ := inOrder_sortedMembers ms
    rw [sortedMembers]
    split
    · exact ⟨hordered, hvalues⟩
    · refine ⟨Members.pairwise_insert hordered, fun m hm => ?_⟩
      rcases Members.mem_of_mem_insert hm with rfl | hm
      · exact inOrder_sorted v
      · exact hvalues m hm

end

/-- What is in order is not changed by sorting. -/
theorem InOrder.sorted_eq {v : Value} (h : InOrder v) : v.sorted = v := by
  induction h with
  | null | bool | number | string => rfl
  | @array vs _ ih =>
    have helements : ∀ ws, (∀ w ∈ ws, w.sorted = w) → sortedElements ws = ws := by
      intro ws hws
      induction ws with
      | nil => rfl
      | cons w ws ihws =>
        obtain ⟨hw, hws⟩ := List.forall_mem_cons.mp hws
        rw [sortedElements, hw, ihws hws]
    rw [Value.sorted, helements vs ih]
  | @object ms inOrder _ ih =>
    have hmembers : ∀ ns : Members, (ns.Pairwise fun m m' => m.1 < m'.1) →
        (∀ m ∈ ns, m.2.sorted = m.2) → sortedMembers ns = ns := by
      intro ns hns hsorted
      induction ns with
      | nil => rfl
      | cons m ns ihns =>
        obtain ⟨hm, hrest⟩ := List.forall_mem_cons.mp hsorted
        obtain ⟨hfirst, hordered⟩ := List.pairwise_cons.mp hns
        have hnone : Members.get? ns m.1 = none := by
          rw [Members.get?_eq_none_iff]
          intro hmem
          obtain ⟨m', hm', heq⟩ := List.mem_map.mp hmem
          exact String.lt_irrefl m.1 (heq ▸ hfirst m' hm')
        obtain ⟨name, v⟩ := m
        rw [sortedMembers, ihns hordered hrest]
        simp only [hnone, Option.isSome_none, Bool.false_eq_true, if_false]
        rw [hm, Members.insert_of_first hfirst]
    rw [Value.sorted, hmembers ms inOrder ih]

/-- Members with different names, put in order one after the other. -/
theorem sortedMembers_cons {name : String} {v : Value} {ms : Members}
    (hname : name ∉ (sortedMembers ms).map (·.1)) :
    sortedMembers ((name, v) :: ms) = Members.insert name v.sorted (sortedMembers ms) := by
  simp [sortedMembers, Members.get?_eq_none_iff.mpr hname]

/-- Every member that is sorted was there. -/
theorem exists_of_mem_sortedMembers {ms : Members} {m : String × Value}
    (h : m ∈ sortedMembers ms) : ∃ v, (m.1, v) ∈ ms ∧ m.2 = v.sorted := by
  induction ms with
  | nil => exact nomatch h
  | cons first ms ih =>
    obtain ⟨name, v⟩ := first
    have hrest : m ∈ sortedMembers ms → ∃ w, (m.1, w) ∈ (name, v) :: ms ∧ m.2 = w.sorted := by
      intro hm
      obtain ⟨w, hw, heq⟩ := ih hm
      exact ⟨w, List.mem_cons_of_mem _ hw, heq⟩
    rw [sortedMembers] at h
    split at h
    · exact hrest h
    · rcases Members.mem_of_mem_insert h with rfl | h
      · exact ⟨v, List.mem_cons_self, rfl⟩
      · exact hrest h

theorem names_sortedMembers {ms : Members} {name : String} (h : name ∉ ms.map (·.1)) :
    name ∉ (sortedMembers ms).map (·.1) := by
  intro hmem
  obtain ⟨m, hm, rfl⟩ := List.mem_map.mp hmem
  obtain ⟨v, hv, -⟩ := exists_of_mem_sortedMembers hm
  exact h (List.mem_map.mpr ⟨_, hv, rfl⟩)

/-- Sorted members are found as they were. -/
theorem get?_sortedMembers {ms : Members} (h : (ms.map (·.1)).Nodup) (name : String) :
    Members.get? (sortedMembers ms) name = (Members.get? ms name).map Value.sorted := by
  induction ms with
  | nil => rfl
  | cons m ms ih =>
    obtain ⟨n, v⟩ := m
    obtain ⟨hn, hms⟩ := List.nodup_cons.mp h
    rw [sortedMembers_cons (names_sortedMembers hn), Members.get?_insert, Members.get?_cons, ih hms]
    split <;> rfl

/-- Members are set one after the other, each with its value sorted. -/
def setSorted (done ms : Members) : Members :=
  ms.foldl (fun done m => Members.insert m.1 m.2.sorted done) done

theorem pairwise_setSorted {done ms : Members} (h : done.Pairwise fun m m' => m.1 < m'.1) :
    (setSorted done ms).Pairwise fun m m' => m.1 < m'.1 := by
  induction ms generalizing done with
  | nil => exact h
  | cons m ms ih => exact ih (Members.pairwise_insert h)

/-- Of what is set, and of what is sorted, the last counts. -/
theorem get?_setSorted (done ms : Members) (name : String) :
    Members.get? (setSorted done ms) name =
      (Members.get? (sortedMembers ms) name).or (Members.get? done name) := by
  induction ms generalizing done with
  | nil => rfl
  | cons m ms ih =>
    obtain ⟨n, v⟩ := m
    show Members.get? (setSorted (Members.insert n v.sorted done) ms) name = _
    rw [ih, Members.get?_insert, sortedMembers]
    cases hlater : Members.get? (sortedMembers ms) n with
    | none =>
      simp only [Option.isSome_none, Bool.false_eq_true, if_false, Members.get?_insert]
      by_cases hname : name = n
      · simp [hname, hlater]
      · simp [hname]
    | some w =>
      simp only [Option.isSome_some, if_true]
      by_cases hname : name = n
      · simp [hname, hlater]
      · simp [hname]

/-- Members are sorted by setting them one after the other. -/
theorem setSorted_nil (ms : Members) : setSorted [] ms = sortedMembers ms := by
  refine Members.eq_of_get? (pairwise_setSorted .nil) (inOrder_sortedMembers ms).1 fun name => ?_
  rw [get?_setSorted]
  exact Option.or_none

/-! ## §2 Values -/

/-- `d` reads `a` out of the sorted value. -/
abbrev Reads {α : Type} (d : Decoder α) (v : Value) (a : α) : Prop := d v.sorted = .ok a

section

variable {α : Type} {d : Decoder α}

theorem reads_text (s : String) : Reads Decoder.text (.string s) s := rfl

theorem reads_path (s : String) : Reads Decoder.path (.string s) s := rfl

theorem reads_word (n : UInt64) : Reads Decoder.word (Value.ofWord n) n := rfl

theorem reads_null : Reads d.nullable .null none := rfl

/-- What may be null is read as itself where it is not. -/
theorem Reads.nullable {v : Value} {a : α} (h : Reads d v a) (hv : v ≠ .null) :
    Reads d.nullable v (some a) := by
  unfold Reads at h ⊢
  cases v with
  | null => exact absurd rfl hv
  | bool | number | string | array | object =>
    simp only [Value.sorted] at h ⊢
    simp only [Decoder.nullable, h]
    rfl

theorem reads_text? (o : Option String) : Reads (Decoder.nullable Decoder.text)
    (Value.ofString? o) o := by
  cases o with
  | none => exact reads_null
  | some s => exact (reads_text s).nullable nofun

theorem reads_word? (o : Option UInt64) : Reads (Decoder.nullable Decoder.word)
    (Value.ofWord? o) o := by
  cases o with
  | none => exact reads_null
  | some n => exact (reads_word n).nullable nofun

/-- Members in order are read as they are. -/
theorem reads_members {ms : Members} (h : InOrder (.object ms)) :
    Reads Decoder.members (.object ms) ms := by
  rw [Reads, h.sorted_eq]
  rfl

/-- A word of a choice. -/
theorem reads_choice {empty : Value → Bool} {variants : List (String × α)} {word : String} {a : α}
    (h : variants.lookup word = some a) :
    Reads (Decoder.choice empty variants) (.string word) a := by
  simp [Reads, Value.sorted, Decoder.choice, h]

end

/-! ## §3 Records -/

/-- A member that is written for a field: it has the name of the field, and
passes its check. -/
structure Fits (m : String × Value) (f : FieldCheck) : Prop where
  name : m.1 = f.1
  check : f.2 m.2.sorted = .ok ()

theorem Reads.fits {α : Type} {d : Decoder α} {v : Value} {a : α} (h : Reads d v a)
    (name : String) : Fits (name, v) (field name d) := by
  refine ⟨rfl, ?_⟩
  change (d v.sorted).map (fun _ => ()) = .ok ()
  rw [h]
  rfl

theorem names_eq_of_fits {ms : Members} {fields : List FieldCheck}
    (h : List.Forall₂ Fits ms fields) : ms.map (·.1) = fields.map (·.1) := by
  induction h with
  | nil => rfl
  | cons hm _ ih => rw [List.map_cons, List.map_cons, hm.name, ih]

theorem exists_field_of_fits {ms : Members} {fields : List FieldCheck}
    (h : List.Forall₂ Fits ms fields) {m : String × Value} (hm : m ∈ ms) :
    ∃ f ∈ fields, Fits m f := by
  induction h with
  | nil => exact nomatch hm
  | cons hfirst _ ih =>
    rcases List.mem_cons.mp hm with rfl | hm
    · exact ⟨_, List.mem_cons_self, hfirst⟩
    · obtain ⟨f, hf, hfits⟩ := ih hm
      exact ⟨f, List.mem_cons_of_mem _ hf, hfits⟩

/-- Of entries with different names each one is found. -/
theorem lookup_of_mem {β : Type} {entries : List (String × β)}
    (hnames : (entries.map (·.1)).Nodup) {entry : String × β} (h : entry ∈ entries) :
    entries.lookup entry.1 = some entry.2 := by
  obtain ⟨before, after, rfl⟩ := List.append_of_mem h
  refine List.lookup_eq_some_iff.mpr ⟨before, after, rfl, fun other hother => ?_⟩
  rw [List.map_append, List.nodup_append] at hnames
  have hne := hnames.2.2 other.1 (List.mem_map_of_mem hother) entry.1 (by simp)
  simpa using Ne.symm hne

theorem checkMembers_of_forall {fields : List FieldCheck} {ms : Members}
    (h : ∀ m ∈ ms, ∀ check, fields.lookup m.1 = some check → check m.2 = .ok ()) :
    checkMembers fields ms = .ok () := by
  induction ms with
  | nil => rfl
  | cons m ms ih =>
    obtain ⟨hm, hms⟩ := List.forall_mem_cons.mp h
    have hrest := ih hms
    rw [checkMembers, List.forM_eq_forM] at hrest ⊢
    rw [List.forM_cons, hrest]
    obtain ⟨name, v⟩ := m
    cases hlookup : fields.lookup name with
    | none => simp [hlookup, bind, Except.bind]
    | some check => simp [hlookup, hm check hlookup, reached, bind, Except.bind]

/-- Sorted members pass the checks of the fields that they are written for. -/
theorem checkMembers_of_fits {ms : Members} {fields : List FieldCheck}
    (hnames : (fields.map (·.1)).Nodup) (h : List.Forall₂ Fits ms fields) :
    checkMembers fields (sortedMembers ms) = .ok () := by
  refine checkMembers_of_forall fun m hm check hcheck => ?_
  obtain ⟨v, hv, heq⟩ := exists_of_mem_sortedMembers hm
  obtain ⟨f, hf, hfits⟩ := exists_field_of_fits h hv
  have hfound := lookup_of_mem hnames hf
  rw [← hfits.name, hcheck] at hfound
  rw [heq, Option.some.inj hfound]
  exact hfits.check

/-- Members in which the ones of `ms` are found, each with its value sorted. -/
abbrev Finds (found ms : Members) : Prop :=
  ∀ name, Members.get? found name = (Members.get? ms name).map Value.sorted

/-- A record is read out of members that are written for its fields, if it is
made from what is found under their names. -/
theorem record_reads {α : Type} {dialect : Dialect} {title : String} {fields : List FieldCheck}
    {build : Source → Except DecodeError α} {ms : Members} {a : α}
    (hnames : (fields.map (·.1)).Nodup) (hfits : List.Forall₂ Fits ms fields)
    (hbuild : ∀ found, Finds found ms → build (.members found) = .ok a) :
    Reads (record dialect title fields build) (.object ms) a := by
  have hfinds := get?_sortedMembers (names_eq_of_fits hfits ▸ hnames)
  rw [Reads, Value.sorted, record, checkMembers_of_fits hnames hfits]
  exact hbuild _ hfinds

/-- The value that a source gives for a field. -/
def Source.value? (s : Source) (place : Nat) (name : String) : Option Value :=
  match s with
  | .members ms => Members.get? ms name
  | .elements _ vs => vs[place]?

theorem bind_eq_ok {ε α β : Type} {x : Except ε α} {f : α → Except ε β} {b : β} :
    x >>= f = .ok b ↔ ∃ a, x = .ok a ∧ f a = .ok b := by
  cases x <;> simp [bind, Except.bind]

theorem bind_eq_error {ε α β : Type} {x : Except ε α} {f : α → Except ε β} {e : ε} :
    x >>= f = .error e ↔ x = .error e ∨ ∃ a, x = .ok a ∧ f a = .error e := by
  cases x <;> simp [bind, Except.bind]

/-- What is read out of a value in order is made from values in order. -/
theorem exists_source {α : Type} {dialect : Dialect} {title : String} {fields : List FieldCheck}
    {build : Source → Except DecodeError α} {v : Value} {a : α} (hv : InOrder v)
    (h : record dialect title fields build v = .ok a) :
    ∃ s : Source, build s = .ok a ∧ ∀ place name w, s.value? place name = some w → InOrder w := by
  cases hv with
  | null | bool | number | string => cases h
  | object _ members =>
    obtain ⟨-, -, h⟩ := bind_eq_ok.mp h
    exact ⟨_, h, fun _ _ w hw => members _ (Members.mem_of_get? hw)⟩
  | array elements =>
    obtain ⟨b, hb, h⟩ := bind_eq_ok.mp h
    split at h
    · cases h
    · obtain rfl := Except.ok.inj h
      exact ⟨_, hb, fun _ _ w hw => elements w (List.mem_of_getElem? hw)⟩

/-- A field with a default holds it, or what is read out of the value that is
given for it. -/
theorem defaulted_eq_ok {α : Type} {s : Source} {place : Nat} {name : String} {d : Decoder α}
    {default a : α} (h : s.defaulted place name d default = .ok a) :
    a = default ∨ ∃ v, s.value? place name = some v ∧ d v = .ok a := by
  cases s with
  | members ms =>
    cases hv : Members.get? ms name with
    | none =>
      simp only [Source.defaulted, hv] at h
      exact .inl (Except.ok.inj h).symm
    | some v =>
      simp only [Source.defaulted, hv] at h
      exact .inr ⟨v, hv, h⟩
  | elements expected vs =>
    cases hv : vs[place]? with
    | none =>
      simp only [Source.defaulted, hv] at h
      exact .inl (Except.ok.inj h).symm
    | some v =>
      simp only [Source.defaulted, hv] at h
      cases hread : d v with
      | error e =>
        rw [hread] at h
        cases h
      | ok b =>
        rw [hread] at h
        exact .inr ⟨v, hv, hread.trans h⟩

theorem required_members {α : Type} {ms : Members} {place : Nat} {name : String} {d : Decoder α}
    {a : α} : (Source.members ms).required place name d = .ok a ↔
      ∃ v, Members.get? ms name = some v ∧ d v = .ok a := by
  cases h : Members.get? ms name <;> simp [Source.required, h]

theorem defaulted_members {α : Type} {ms : Members} {place : Nat} {name : String} {d : Decoder α}
    {default a : α} : (Source.members ms).defaulted place name d default = .ok a ↔
      Members.get? ms name = none ∧ a = default ∨
        ∃ v, Members.get? ms name = some v ∧ d v = .ok a := by
  cases h : Members.get? ms name <;> simp [Source.defaulted, h, eq_comm]

theorem check_field {α : Type} {name : String} {d : Decoder α} {v : Value} {a : α}
    (h : d v = .ok a) : (field name d).2 v = .ok () := by
  show (d v).map (fun _ => ()) = .ok ()
  rw [h]
  rfl

/-- A value that a record is made from passes the check of its field. -/
theorem required_check {α : Type} {ms : Members} {place : Nat} {name : String} {d : Decoder α}
    {a : α} (h : (Source.members ms).required place name d = .ok a) :
    ∀ v, Members.get? ms name = some v → (field name d).2 v = .ok () := by
  obtain ⟨w, hw, hread⟩ := required_members.mp h
  intro v hv
  obtain rfl := Option.some.inj (hw.symm.trans hv)
  exact check_field hread

theorem defaulted_check {α : Type} {ms : Members} {place : Nat} {name : String} {d : Decoder α}
    {default a : α} (h : (Source.members ms).defaulted place name d default = .ok a) :
    ∀ v, Members.get? ms name = some v → (field name d).2 v = .ok () := by
  intro v hv
  rcases defaulted_members.mp h with ⟨hnone, -⟩ | ⟨w, hw, hread⟩
  · cases hnone.symm.trans hv
  · obtain rfl := Option.some.inj (hw.symm.trans hv)
    exact check_field hread

/-- Out of members with different names a record is read exactly if it can be
made from them, provided that a record is only made where its fields pass their
checks. -/
theorem record_object {α : Type} {dialect : Dialect} {title : String} {fields : List FieldCheck}
    {build : Source → Except DecodeError α} {ms : Members} (hnames : (ms.map (·.1)).Nodup)
    (hchecks : ∀ a, build (.members ms) = .ok a → ∀ f ∈ fields, ∀ v,
      Members.get? ms f.1 = some v → f.2 v = .ok ()) (a : α) :
    record dialect title fields build (.object ms) = .ok a ↔ build (.members ms) = .ok a := by
  constructor
  · intro h
    obtain ⟨-, -, h⟩ := bind_eq_ok.mp h
    exact h
  · intro h
    refine bind_eq_ok.mpr ⟨(), checkMembers_of_forall fun m hm check hcheck => ?_, h⟩
    obtain ⟨before, after, rfl, -⟩ := List.lookup_eq_some_iff.mp hcheck
    exact hchecks a h (m.1, check) (by simp) m.2 (lookup_of_mem hnames hm)

/-! ## §4 Tags -/

theorem filter_insert (name : String) (v : Value) (ms : Members) :
    (Members.insert name v ms).filter (·.1 != name) = ms.filter (·.1 != name) := by
  induction ms with
  | nil => simp [Members.insert]
  | cons m ms ih =>
    obtain ⟨n, w⟩ := m
    rw [Members.insert]
    split
    · simp
    · split
      case isTrue heq =>
        obtain rfl := eq_of_beq heq
        simp
      case isFalse => rw [List.filter_cons, List.filter_cons, ih]

/-- A tagged value is read out of its word and the members that are written
for the fields of the alternative that the word names. -/
theorem tagged_reads {α : Type} {title tag word : String} {alternatives : List (Alternative α)}
    {alternative : Alternative α} {ms : Members} {a : α}
    (hpick : alternatives.find? (·.word == word) = some alternative)
    (hnames : (tag :: alternative.fields.map (·.1)).Nodup)
    (hfits : List.Forall₂ Fits ms alternative.fields)
    (hbuild : ∀ found, Finds found ms → alternative.build (.members found) = .ok a) :
    Reads (tagged title tag alternatives) (.object ((tag, .string word) :: ms)) a := by
  rw [← names_eq_of_fits hfits] at hnames
  obtain ⟨htag, hms⟩ := List.nodup_cons.mp hnames
  have hsorted : sortedMembers ((tag, .string word) :: ms) =
      Members.insert tag (.string word) (sortedMembers ms) :=
    sortedMembers_cons (names_sortedMembers htag)
  have hfilter : (sortedMembers ms).filter (·.1 != tag) = sortedMembers ms := by
    refine List.filter_eq_self.mpr fun m hm => ?_
    have hne : m.1 ≠ tag := fun heq =>
      names_sortedMembers htag (heq ▸ List.mem_map_of_mem hm)
    simpa using hne
  have hchecks := checkMembers_of_fits (names_eq_of_fits hfits ▸ hms) hfits
  have hbuild := hbuild _ (get?_sortedMembers hms)
  rw [Reads, Value.sorted, hsorted, tagged]
  simp [Members.get?_insert, filter_insert, hfilter, Alternative.pick, hpick, hchecks, hbuild,
    bind, Except.bind]

end Runwatch.Json
