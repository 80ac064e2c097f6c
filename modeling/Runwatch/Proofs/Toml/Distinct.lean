/-
Runwatch.Proofs.Toml.Distinct — no table of a document has a name twice.

A table may be written down in several places: by its header, by dotted keys,
and by headers of tables inside it. The reader takes all of these together,
and it refuses what would define something a second time. So in the tree that
it builds every table has each of its names once (`Node.Distinct`), and the
whole document is a table.

  §1 Entries   — finding, adding and replacing one entry.
  §2 Steps     — what every step of the builder keeps (`Keeps`).
  §3 Values    — the values that are read (`valuesDistinct`).
  §4 Documents — the builder from line to line (`Builder.Sound`).

The main statement is `parse_distinct`.
-/
import Mathlib.Data.List.Nodup
import Runwatch.Proofs.Json.Records
import Runwatch.Toml.Reader

namespace Runwatch.Toml

open Json (bind_eq_ok)

namespace Node

/-- Nowhere in a node does a table have two entries of one name. -/
inductive Distinct : Node → Prop where
  | plain (place : Nat) (v : Json.Value) : Distinct (.plain place v)
  | date (place : Nat) : Distinct (.date place)
  | array {place : Nat} {items : List Node} (inside : ∀ n ∈ items, Distinct n) :
      Distinct (.array place items)
  | tables {items : List Node} (inside : ∀ n ∈ items, Distinct n) : Distinct (.tables items)
  | table {kind : TableKind} {place : Option Nat} {entries : List (Key × Node)}
      (names : (entries.map (·.1.name)).Nodup) (inside : ∀ e ∈ entries, Distinct e.2) :
      Distinct (.table kind place entries)

/-- A node is a table. -/
def IsTable (n : Node) : Prop := ∃ kind place entries, n = .table kind place entries

/-! ## §1 Entries -/

theorem lookup_eq_none_iff {name : String} {entries : List (Key × Node)} :
    lookup name entries = none ↔ name ∉ entries.map (·.1.name) := by
  simp [lookup]

theorem mem_of_lookup {name : String} {entries : List (Key × Node)} {n : Node}
    (h : lookup name entries = some n) : ∃ e ∈ entries, e.1.name = name ∧ e.2 = n := by
  obtain ⟨e, he, rfl⟩ := Option.map_eq_some_iff.mp h
  exact ⟨e, List.mem_of_find?_eq_some he, by simpa using List.find?_some he, rfl⟩

theorem names_replace (name : String) (n : Node) (entries : List (Key × Node)) :
    (replace name n entries).map (·.1.name) = entries.map (·.1.name) := by
  rw [replace, List.map_map]
  refine List.map_congr_left fun e _ => ?_
  simp only [Function.comp_apply]
  split <;> rfl

theorem mem_replace {name : String} {n : Node} {entries : List (Key × Node)} {e : Key × Node}
    (h : e ∈ replace name n entries) : e.2 = n ∨ e ∈ entries := by
  obtain ⟨old, hold, rfl⟩ := List.mem_map.mp h
  by_cases hname : old.1.name = name
  · exact .inl (by simp [hname])
  · exact .inr (by simpa [hname] using hold)

variable {kind : TableKind} {place : Option Nat} {entries : List (Key × Node)}

theorem Distinct.of_lookup {name : String} {n : Node} (h : Distinct (.table kind place entries))
    (hn : lookup name entries = some n) : n.Distinct := by
  cases h with
  | table _ inside =>
    obtain ⟨e, he, -, rfl⟩ := mem_of_lookup hn
    exact inside e he

/-- An entry is added under a name that is not there. -/
theorem Distinct.added {key : Key} {n : Node} (h : Distinct (.table kind place entries))
    (hnone : lookup key.name entries = none) (hn : n.Distinct) :
    Distinct (.table kind place (entries ++ [(key, n)])) := by
  cases h with
  | table names inside =>
    refine .table ?_ fun e he => ?_
    · rw [List.map_append, List.map_singleton, ← List.concat_eq_append]
      exact names.concat (lookup_eq_none_iff.mp hnone)
    · rcases List.mem_append.mp he with he | he
      · exact inside e he
      · obtain rfl := List.mem_singleton.mp he
        exact hn

theorem Distinct.replaced {n : Node} (h : Distinct (.table kind place entries)) (name : String)
    (hn : n.Distinct) : Distinct (.table kind place (replace name n entries)) := by
  cases h with
  | table names inside =>
    refine .table (names_replace name n entries ▸ names) fun e he => ?_
    rcases mem_replace he with rfl | he
    · exact hn
    · exact inside e he

theorem distinct_ofKind (kind : TableKind) (place : Option Nat) : (ofKind kind place).Distinct :=
  .table .nil nofun

/-! ## §2 Steps -/

/-- A step that leaves a table, nowhere in which a name comes twice, and gives
what satisfies `P`. -/
def Keeps {α : Type} (P : α → Prop) (f : Node → Option (Node × α)) : Prop :=
  ∀ n m a, n.Distinct → f n = some (m, a) → m.Distinct ∧ m.IsTable ∧ P a

/-- What is done at the end of a path keeps what it keeps there. -/
theorem Keeps.descend {α : Type} {P : α → Prop} {f : Node → Option (Node × α)} (hf : Keeps P f)
    (through made : TableKind) (path : List Key) : Keeps P (descend through made f path) := by
  induction path with
  | nil => exact hf
  | cons key path ih =>
    intro n m a hn h
    cases n with
    | plain | date | array | tables => cases h
    | table kind place entries =>
      rw [Node.descend] at h
      split at h
      · next hnone =>
        obtain ⟨⟨child, b⟩, hchild, h⟩ := Option.bind_eq_some_iff.mp h
        obtain ⟨rfl, rfl⟩ := Prod.mk.inj (Option.some.inj h)
        obtain ⟨hd, -, ha⟩ := ih _ _ _ (distinct_ofKind made none) hchild
        exact ⟨hn.added hnone hd, ⟨_, _, _, rfl⟩, ha⟩
      · next items hitems =>
        obtain ⟨last, hlast, h⟩ := Option.bind_eq_some_iff.mp h
        obtain ⟨⟨child, b⟩, hchild, h⟩ := Option.bind_eq_some_iff.mp h
        obtain ⟨rfl, rfl⟩ := Prod.mk.inj (Option.some.inj h)
        have hitems := hn.of_lookup hitems
        cases hitems with
        | tables inside =>
          obtain ⟨hd, -, ha⟩ := ih _ _ _ (inside last (List.mem_of_getLast? hlast)) hchild
          refine ⟨hn.replaced _ (.tables fun n hmem => ?_), ⟨_, _, _, rfl⟩, ha⟩
          rcases List.mem_append.mp hmem with hmem | hmem
          · exact inside n ((List.dropLast_sublist items).mem hmem)
          · obtain rfl := List.mem_singleton.mp hmem
            exact hd
      · next k p es hes =>
        split at h
        · obtain ⟨⟨child, b⟩, hchild, h⟩ := Option.bind_eq_some_iff.mp h
          obtain ⟨rfl, rfl⟩ := Prod.mk.inj (Option.some.inj h)
          obtain ⟨hd, -, ha⟩ := ih _ _ _ (hn.of_lookup hes) hchild
          exact ⟨hn.replaced _ hd, ⟨_, _, _, rfl⟩, ha⟩
        · cases h
      · cases h

/-- A step that gives nothing beside the table. -/
abbrev Passes (f : Node → Option (Node × Unit)) : Prop := Keeps (fun _ => True) f

theorem passes_add (isDotted : Bool) (key : Key) {v : Node} (hv : v.Distinct) :
    Passes (add isDotted key v) := by
  intro n m a hn h
  cases n with
  | plain | date | array | tables => cases h
  | table kind place entries =>
    rw [add] at h
    split at h
    · cases h
    · next hfree =>
      obtain ⟨rfl, -⟩ := Prod.mk.inj (Option.some.inj h)
      have hnone : lookup key.name entries = none := by
        simpa using (not_or.mp (mt (Bool.or_eq_true _ _).mpr hfree)).2
      exact ⟨hn.added hnone hv, ⟨_, _, _, rfl⟩, trivial⟩

theorem Distinct.assigned {through : TableKind} {path : List Key} {key : Key} {v t m : Node}
    (hv : v.Distinct) (ht : t.Distinct) (h : assign through path key v t = some m) :
    m.Distinct ∧ m.IsTable := by
  obtain ⟨⟨m', u⟩, hm, rfl⟩ := Option.map_eq_some_iff.mp h
  obtain ⟨hd, htable, -⟩ := (passes_add _ key hv).descend _ _ _ _ _ _ ht hm
  exact ⟨hd, htable⟩

/-- The tables inside a table that was only implied stay as they are when it
is taken out. -/
theorem keeps_takeImplied (key : Key) :
    Keeps (fun own => (Node.table .header none own).Distinct) (Builder.takeImplied key) := by
  intro n m own hn h
  cases n with
  | plain | date | array | tables => cases h
  | table kind place entries =>
    rw [Builder.takeImplied] at h
    split at h
    · obtain ⟨rfl, rfl⟩ := Prod.mk.inj (Option.some.inj h)
      exact ⟨hn, ⟨_, _, _, rfl⟩, .table .nil nofun⟩
    · next place' es hes =>
      obtain ⟨rfl, rfl⟩ := Prod.mk.inj (Option.some.inj h)
      have hown := hn.of_lookup hes
      cases hn with
      | table names inside =>
        cases hown with
        | table names' inside' =>
          refine ⟨.table ?_ fun e he => inside e (List.mem_of_mem_filter he), ⟨_, _, _, rfl⟩,
            .table names' inside'⟩
          exact names.sublist (List.filter_sublist.map _)
    · cases h

theorem passes_admitElement (key : Key) : Passes (Builder.admitElement key) := by
  intro n m a hn h
  cases n with
  | plain | date | array | tables => cases h
  | table kind place entries =>
    rw [Builder.admitElement] at h
    split at h
    · obtain ⟨rfl, -⟩ := Prod.mk.inj (Option.some.inj h)
      exact ⟨hn, ⟨_, _, _, rfl⟩, trivial⟩
    · obtain ⟨rfl, -⟩ := Prod.mk.inj (Option.some.inj h)
      exact ⟨hn, ⟨_, _, _, rfl⟩, trivial⟩
    · cases h

theorem passes_attach {b : Builder} (hb : b.current.Distinct) (key : Key) :
    Passes (b.attach key) := by
  intro n m a hn h
  cases n with
  | plain | date | array | tables => cases h
  | table kind place entries =>
    rw [Builder.attach] at h
    split at h
    · next hnone _ =>
      obtain ⟨rfl, -⟩ := Prod.mk.inj (Option.some.inj h)
      refine ⟨hn.added hnone (.tables fun n hmem => ?_), ⟨_, _, _, rfl⟩, trivial⟩
      obtain rfl := List.mem_singleton.mp hmem
      exact hb
    · next hnone _ =>
      obtain ⟨rfl, -⟩ := Prod.mk.inj (Option.some.inj h)
      exact ⟨hn.added hnone hb, ⟨_, _, _, rfl⟩, trivial⟩
    · next items hitems _ =>
      obtain ⟨rfl, -⟩ := Prod.mk.inj (Option.some.inj h)
      have hitems := hn.of_lookup hitems
      cases hitems with
      | tables inside =>
        refine ⟨hn.replaced _ (.tables fun n hmem => ?_), ⟨_, _, _, rfl⟩, trivial⟩
        rcases List.mem_append.mp hmem with hmem | hmem
        · exact inside n hmem
        · obtain rfl := List.mem_singleton.mp hmem
          exact hb
    · cases h

end Node

/-! ## §3 Values -/

open Node (Distinct IsTable)

/-- The values that are read with some fuel have no name twice. -/
structure ValuesDistinct (fuel : Nat) : Prop where
  value : ∀ depth cs n rest, readValue fuel depth cs = .ok (n, rest) → n.Distinct
  items : ∀ depth done cs ns rest, (∀ n ∈ done, n.Distinct) →
    readItems fuel depth done cs = .ok (ns, rest) → ∀ n ∈ ns, n.Distinct
  pairs : ∀ depth done cs ps rest, (∀ p ∈ done, p.2.2.Distinct) →
    readPairs fuel depth done cs = .ok (ps, rest) → ∀ p ∈ ps, p.2.2.Distinct

/-- Values are assigned one after the other. -/
theorem distinct_assignAll {ps : List (List Key × Key × Node)} {t m : Node}
    (hps : ∀ p ∈ ps, p.2.2.Distinct) (ht : t.Distinct)
    (h : ps.foldlM (fun t (path, key, v) => Node.assign .inline path key v t) t = some m) :
    m.Distinct := by
  induction ps generalizing t with
  | nil =>
    obtain rfl := Option.some.inj h
    exact ht
  | cons p ps ih =>
    obtain ⟨hp, hps⟩ := List.forall_mem_cons.mp hps
    rw [List.foldlM_cons] at h
    obtain ⟨next, hnext, h⟩ := Option.bind_eq_some_iff.mp h
    exact ih hps (hp.assigned ht hnext).1 h

theorem ValuesDistinct.readValue {fuel : Nat} (ih : ValuesDistinct fuel) (depth : Nat)
    (cs : List Char) (n : Node) (rest : List Char)
    (h : readValue (fuel + 1) depth cs = .ok (n, rest)) : n.Distinct := by
  unfold Toml.readValue at h
  split at h
  · obtain ⟨⟨s, after⟩, -, h⟩ := bind_eq_ok.mp h
    obtain ⟨rfl, -⟩ := Prod.mk.inj (Except.ok.inj h)
    exact .plain _ _
  · obtain ⟨⟨s, after⟩, -, h⟩ := bind_eq_ok.mp h
    obtain ⟨rfl, -⟩ := Prod.mk.inj (Except.ok.inj h)
    exact .plain _ _
  · split at h
    · cases h
    · obtain ⟨⟨items, after⟩, hitems, h⟩ := bind_eq_ok.mp h
      obtain ⟨rfl, -⟩ := Prod.mk.inj (Except.ok.inj h)
      exact .array (ih.items _ _ _ _ _ (List.forall_mem_nil _) hitems)
  · split at h
    · cases h
    · obtain ⟨⟨pairs, after⟩, hpairs, h⟩ := bind_eq_ok.mp h
      dsimp only at h
      split at h
      · next t ht =>
        obtain ⟨rfl, -⟩ := Prod.mk.inj (Except.ok.inj h)
        have hvalues := ih.pairs _ _ _ _ _ (List.forall_mem_nil _) hpairs
        exact distinct_assignAll hvalues (Node.distinct_ofKind _ _) ht
      · cases h
  · obtain ⟨rfl, -⟩ := Prod.mk.inj (Except.ok.inj h)
    exact .plain _ _
  · obtain ⟨rfl, -⟩ := Prod.mk.inj (Except.ok.inj h)
    exact .plain _ _
  · split at h
    · obtain ⟨after, -, h⟩ := bind_eq_ok.mp h
      obtain ⟨rfl, -⟩ := Prod.mk.inj (Except.ok.inj h)
      exact .date _
    · obtain ⟨⟨v, after⟩, -, h⟩ := bind_eq_ok.mp h
      obtain ⟨rfl, -⟩ := Prod.mk.inj (Except.ok.inj h)
      exact .plain _ _

theorem ValuesDistinct.readItems {fuel : Nat} (ih : ValuesDistinct fuel) (depth : Nat)
    (done : List Node) (cs : List Char) (ns : List Node) (rest : List Char)
    (hdone : ∀ n ∈ done, n.Distinct) (h : readItems (fuel + 1) depth done cs = .ok (ns, rest)) :
    ∀ n ∈ ns, n.Distinct := by
  unfold Toml.readItems at h
  split at h
  · obtain ⟨rfl, -⟩ := Prod.mk.inj (Except.ok.inj h)
    exact fun n hn => hdone n (List.mem_reverse.mp hn)
  · obtain ⟨⟨item, after⟩, hitem, h⟩ := bind_eq_ok.mp h
    have hmore : ∀ n ∈ item :: done, n.Distinct :=
      List.forall_mem_cons.mpr ⟨ih.value _ _ _ _ hitem, hdone⟩
    dsimp only at h
    split at h
    · exact ih.items _ _ _ _ _ hmore h
    · obtain ⟨rfl, -⟩ := Prod.mk.inj (Except.ok.inj h)
      exact fun n hn => hmore n (List.mem_reverse.mp hn)
    · cases h

theorem ValuesDistinct.readPairs {fuel : Nat} (ih : ValuesDistinct fuel) (depth : Nat)
    (done : List (List Key × Key × Node)) (cs : List Char) (ps : List (List Key × Key × Node))
    (rest : List Char) (hdone : ∀ p ∈ done, p.2.2.Distinct)
    (h : readPairs (fuel + 1) depth done cs = .ok (ps, rest)) : ∀ p ∈ ps, p.2.2.Distinct := by
  unfold Toml.readPairs at h
  split at h
  · split at h
    · obtain ⟨rfl, -⟩ := Prod.mk.inj (Except.ok.inj h)
      nofun
    · cases h
  · obtain ⟨⟨⟨path, key⟩, after⟩, -, h⟩ := bind_eq_ok.mp h
    obtain ⟨after, -, h⟩ := bind_eq_ok.mp h
    obtain ⟨⟨v, after⟩, hv, h⟩ := bind_eq_ok.mp h
    have hmore : ∀ p ∈ (path, key, v) :: done, p.2.2.Distinct :=
      List.forall_mem_cons.mpr ⟨ih.value _ _ _ _ hv, hdone⟩
    dsimp only at h
    split at h
    · split at h
      · exact ih.pairs _ _ _ _ _ hmore h
      · cases h
    · obtain ⟨rfl, -⟩ := Prod.mk.inj (Except.ok.inj h)
      exact fun p hp => hmore p (List.mem_reverse.mp hp)
    · cases h

/-- Every value that is read has no name twice. -/
theorem valuesDistinct (fuel : Nat) : ValuesDistinct fuel := by
  induction fuel with
  | zero =>
    refine ⟨fun depth cs n rest h => ?_, fun depth done cs ns rest _ h => ?_,
      fun depth done cs ps rest _ h => ?_⟩
    · simp [readValue] at h
    · simp [readItems] at h
    · simp [readPairs] at h
  | succ fuel ih => exact ⟨ih.readValue, ih.readItems, ih.readPairs⟩

/-! ## §4 Documents -/

/-- A document in the making: the tables that are closed and the open one,
nowhere with a name twice. -/
structure Builder.Sound (b : Builder) : Prop where
  root : b.root.Distinct
  isTable : b.root.IsTable
  current : b.current.Distinct
  currentIsTable : b.current.IsTable

namespace Builder

theorem sound_start : start.Sound :=
  ⟨Node.distinct_ofKind _ _, ⟨_, _, _, rfl⟩, Node.distinct_ofKind _ _, ⟨_, _, _, rfl⟩⟩

variable {b next : Builder}

theorem Sound.close (hb : b.Sound) {root : Node} (h : b.close = some root) :
    root.Distinct ∧ root.IsTable := by
  rw [Builder.close] at h
  split at h
  · obtain rfl := Option.some.inj h
    exact ⟨hb.current, hb.currentIsTable⟩
  · next key _ =>
    obtain ⟨⟨m, u⟩, hm, rfl⟩ := Option.map_eq_some_iff.mp h
    obtain ⟨hd, htable, -⟩ := (Node.passes_attach hb.current key).descend _ _ _ _ _ _ hb.root hm
    exact ⟨hd, htable⟩

theorem Sound.openTable (hb : b.Sound) {path : List Key} {place : Nat}
    (h : b.openTable path place = some next) : next.Sound := by
  obtain ⟨root, hroot, h⟩ := Option.bind_eq_some_iff.mp h
  obtain ⟨key, -, h⟩ := Option.bind_eq_some_iff.mp h
  obtain ⟨⟨m, own⟩, hm, h⟩ := Option.bind_eq_some_iff.mp h
  obtain rfl := Option.some.inj h
  obtain ⟨hd, htable, hown⟩ :=
    (Node.keeps_takeImplied key).descend _ _ _ _ _ _ (hb.close hroot).1 hm
  refine ⟨hd, htable, ?_, ⟨_, _, _, rfl⟩⟩
  cases hown with
  | table names inside => exact .table names inside

theorem Sound.openElement (hb : b.Sound) {path : List Key} {place : Nat}
    (h : b.openElement path place = some next) : next.Sound := by
  obtain ⟨root, hroot, h⟩ := Option.bind_eq_some_iff.mp h
  obtain ⟨key, -, h⟩ := Option.bind_eq_some_iff.mp h
  obtain ⟨⟨m, u⟩, hm, h⟩ := Option.bind_eq_some_iff.mp h
  obtain rfl := Option.some.inj h
  obtain ⟨hd, htable, -⟩ :=
    (Node.passes_admitElement key).descend _ _ _ _ _ _ (hb.close hroot).1 hm
  exact ⟨hd, htable, Node.distinct_ofKind _ _, ⟨_, _, _, rfl⟩⟩

theorem Sound.assign (hb : b.Sound) {path : List Key} {key : Key} {v : Node} (hv : v.Distinct)
    (h : b.assign path key v = some next) : next.Sound := by
  obtain ⟨t, ht, rfl⟩ := Option.map_eq_some_iff.mp h
  obtain ⟨hd, htable⟩ := hv.assigned hb.current ht
  exact ⟨hb.root, hb.isTable, hd, htable⟩

end Builder

theorem orStuck_eq_ok_iff {α : Type} {stuck : List Char} {o : Option α} {a : α} :
    orStuck stuck o = .ok a ↔ o = some a := by
  cases o <;> simp [orStuck]

section

variable {b next : Builder} {cs rest : List Char}

theorem Builder.Sound.readAssignment (hb : b.Sound)
    (h : readAssignment b cs = .ok (next, rest)) : next.Sound := by
  obtain ⟨⟨⟨path, key⟩, after⟩, -, h⟩ := bind_eq_ok.mp h
  obtain ⟨after, -, h⟩ := bind_eq_ok.mp h
  obtain ⟨⟨v, after⟩, hv, h⟩ := bind_eq_ok.mp h
  obtain ⟨after, -, h⟩ := bind_eq_ok.mp h
  obtain ⟨b', hassign, h⟩ := bind_eq_ok.mp h
  obtain ⟨rfl, -⟩ := Prod.mk.inj (Except.ok.inj h)
  exact hb.assign ((valuesDistinct _).value _ _ _ _ hv) (orStuck_eq_ok_iff.mp hassign)

theorem Builder.Sound.readHeader (hb : b.Sound)
    (h : readHeader b cs = .ok (next, rest)) : next.Sound := by
  unfold Toml.readHeader at h
  split at h
  · obtain ⟨⟨⟨path, key⟩, after⟩, -, h⟩ := bind_eq_ok.mp h
    dsimp only at h
    split at h
    · obtain ⟨after, -, h⟩ := bind_eq_ok.mp h
      obtain ⟨b', hopen, h⟩ := bind_eq_ok.mp h
      obtain ⟨rfl, -⟩ := Prod.mk.inj (Except.ok.inj h)
      exact hb.openElement (orStuck_eq_ok_iff.mp hopen)
    · cases h
  · split at h
    · cases h
    · obtain ⟨⟨⟨path, key⟩, after⟩, -, h⟩ := bind_eq_ok.mp h
      obtain ⟨after, -, h⟩ := bind_eq_ok.mp h
      obtain ⟨after, -, h⟩ := bind_eq_ok.mp h
      obtain ⟨b', hopen, h⟩ := bind_eq_ok.mp h
      obtain ⟨rfl, -⟩ := Prod.mk.inj (Except.ok.inj h)
      exact hb.openTable (orStuck_eq_ok_iff.mp hopen)
  · cases h

/-- Reading goes on line by line. -/
theorem Builder.Sound.readLinesOf {fuel : Nat} (hb : b.Sound)
    (h : readLinesOf fuel b cs = .ok next) : next.Sound := by
  induction fuel generalizing b cs with
  | zero => cases h
  | succ fuel ih =>
    unfold Toml.readLinesOf at h
    split at h
    · obtain rfl := Except.ok.inj h
      exact hb
    · obtain ⟨after, -, h⟩ := bind_eq_ok.mp h
      exact ih hb h
    · obtain ⟨⟨b', after⟩, hheader, h⟩ := bind_eq_ok.mp h
      exact ih (hb.readHeader hheader) h
    · split at h
      · exact ih hb h
      · split at h
        · cases h
        · obtain ⟨⟨b', after⟩, hassignment, h⟩ := bind_eq_ok.mp h
          exact ih (hb.readAssignment hassignment) h

end

/-- A document that is read is a table, nowhere in which a name comes twice. -/
theorem parse_distinct {cs : List Char} {root : Node} (h : parse cs = .ok root) :
    root.Distinct ∧ root.IsTable := by
  unfold parse at h
  split at h
  · cases h
  · next b hread =>
    split at h
    · next closed hclose =>
      obtain rfl := Except.ok.inj h
      exact (Builder.sound_start.readLinesOf hread).close hclose
    · cases h

end Runwatch.Toml
