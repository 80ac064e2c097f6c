/-
Runwatch.Proofs.Json.Forms — what is written as a JSON value is read back.

Every type that has a JSON form is written by one function and read by
another. A `Form` holds the two together, with the values that it is for.

  §1 Forms         — `Form.IsFaithful`.
  §2 Words         — names, tiers, speakers and instants.
  §3 Events        — events that tell of an end, by their kinds.
  §4 Tokens        — what is kept and sent about devices.
  §5 Settings      — layouts and the sections of a configuration.
  §6 Notifications — payloads, outcomes and notices.
  §7 All forms     — `forms_faithful`.
-/
import Runwatch.Config.Settings
import Runwatch.Event.Completion
import Runwatch.Proofs.Json.Records
import Runwatch.Proofs.Time.Written
import Runwatch.Push.Notice

namespace Runwatch

open Json (Decoder InOrder Members Reads Source Value)
open Time (Instant)

/-! ## §1 Forms -/

/-- How values of a type are written as JSON values and read out of them. Some
values have JSON values in them, which are kept in order; and a form may be
for some of its type only. -/
structure Form (α : Type) where
  toJson : α → Value
  ofJson : Decoder α
  IsKept : α → Prop
  InRange : α → Prop

namespace Form

variable {α : Type}

/-- The JSON value of `a` as it is kept: with the members of every object in
the order of their names. -/
def encode (f : Form α) (a : α) : Value := (f.toJson a).sorted

/-- What is written is a JSON value in order and is read back. What is read out
of a JSON value in order is kept so, and is read once more out of what is
written for it. -/
structure IsFaithful (f : Form α) : Prop where
  encode_inOrder : ∀ a, InOrder (f.encode a)
  ofJson_encode : ∀ a, f.IsKept a → f.InRange a → f.ofJson (f.encode a) = .ok a
  isKept_of_ofJson : ∀ v a, InOrder v → f.ofJson v = .ok a → f.IsKept a
  ofJson_encode_again : ∀ v a, InOrder v → f.ofJson v = .ok a → f.InRange a →
    f.ofJson (f.encode a) = f.ofJson v

theorem IsFaithful.of_reads {f : Form α}
    (hkept : ∀ v a, InOrder v → f.ofJson v = .ok a → f.IsKept a)
    (h : ∀ a, f.IsKept a → f.InRange a → Reads f.ofJson (f.toJson a) a) : f.IsFaithful where
  encode_inOrder a := Json.inOrder_sorted (f.toJson a)
  ofJson_encode := h
  isKept_of_ofJson := hkept
  ofJson_encode_again v a hv hread hrange := (h a (hkept v a hv hread) hrange).trans hread.symm

/-- A form for all values of a type without JSON values in it. -/
def total (toJson : α → Value) (ofJson : Decoder α) : Form α where
  toJson := toJson
  ofJson := ofJson
  IsKept _ := True
  InRange _ := True

theorem isFaithful_total {toJson : α → Value} {ofJson : Decoder α}
    (h : ∀ a, Reads ofJson (toJson a) a) : (total toJson ofJson).IsFaithful :=
  .of_reads (fun _ _ _ _ => trivial) fun a _ _ => h a

end Form

/-! ## §2 Words -/

theorem TaskRunId.reads (id : TaskRunId) : Reads TaskRunId.ofJson id.toJson id := rfl

theorem UserId.reads (id : UserId) : Reads UserId.ofJson id.toJson id := rfl

theorem Environment.reads (e : Environment) : Reads Environment.ofJson e.toJson e := by
  cases e <;> exact Json.reads_choice (by decide)

theorem Speaker.reads (s : Speaker) : Reads Speaker.ofJson s.toJson s := by
  cases s <;> exact Json.reads_choice (by decide)

theorem Speaker.reads_member (s : Speaker) : Reads Speaker.ofMember s.toJson s := by
  cases s <;> exact Json.reads_choice (by decide)

theorem reads_instant {t : Instant} (ht : t.IsCommon) :
    Reads instantOfJson (instantToJson t) t := by
  simp [Reads, instantToJson, Value.sorted, instantOfJson, Time.parseRelaxed_zulu ht]

theorem reads_instant? {o : Option Instant} (ho : ∀ t ∈ o, t.IsCommon) :
    Reads (Decoder.nullable instantOfJson) ((o.map instantToJson).getD .null) o := by
  cases o with
  | none => exact Json.reads_null
  | some t => exact (reads_instant (ho t rfl)).nullable nofun

/-! ## §3 Events -/

/-- The checks of the two counts of an event. -/
theorem CompletionEvent.fits_counts (turns ms : Option UInt64) :
    List.Forall₂ Json.Fits [("turn_count", Value.ofWord? turns), ("duration_ms", Value.ofWord? ms)]
      countFields :=
  .cons ((Json.reads_word? turns).fits _) (.cons ((Json.reads_word? ms).fits _) .nil)

theorem CompletionEvent.reads (e : CompletionEvent) :
    Reads CompletionEvent.ofJson e.toJson e := by
  cases e with
  | nextSpeakerCheck s =>
    have hs := s.reads_member
    refine Json.tagged_reads rfl (by decide) (.cons (hs.fits _) .nil) fun found hfound => ?_
    simp [Source.required, hfound, fields, Members.get?_cons, hs]
  | agentFinish reason turns ms =>
    have hreason := Json.reads_text? reason
    have hturns := Json.reads_word? turns
    have hms := Json.reads_word? ms
    refine Json.tagged_reads rfl (by decide) (.cons (hreason.fits _) (fits_counts turns ms))
      fun found hfound => ?_
    simp [Source.nullable, hfound, fields, Members.get?_cons, hreason, hturns, hms, bind,
      Except.bind]
    rfl
  | agentCompleteTask turns ms | conversationFinished turns ms =>
    have hturns := Json.reads_word? turns
    have hms := Json.reads_word? ms
    refine Json.tagged_reads rfl (by decide) (fits_counts turns ms) fun found hfound => ?_
    simp [Source.nullable, hfound, fields, Members.get?_cons, hturns, hms, bind, Except.bind]
    rfl

/-! ## §4 Tokens -/

theorem ActiveToken.reads (t : ActiveToken) : Reads ActiveToken.ofJson t.toJson t := by
  have htoken := Json.reads_text t.token
  have henvironment := t.environment.reads
  have hbundle := Json.reads_text t.bundle
  refine Json.record_reads (by decide) (.cons (htoken.fits _) (.cons (henvironment.fits _)
    (.cons (hbundle.fits _) .nil))) fun found hfound => ?_
  simp [Source.required, hfound, Members.get?_cons, htoken, henvironment, hbundle, bind,
    Except.bind]
  rfl

theorem Registration.reads (r : Registration) : Reads Registration.ofJson r.toJson r := by
  have htoken := Json.reads_text r.token
  have huser := r.user.reads
  have henvironment := r.environment.reads
  have hbundle := Json.reads_text r.bundle
  refine Json.record_reads (by decide) (.cons (htoken.fits _) (.cons (huser.fits _)
    (.cons (henvironment.fits _) (.cons (hbundle.fits _) .nil)))) fun found hfound => ?_
  simp [Source.required, hfound, Members.get?_cons, htoken, huser, henvironment, hbundle, bind,
    Except.bind]
  rfl

/-- A record whose times are of years with four digits and outside leap
seconds. -/
structure DeviceToken.IsCommon (t : DeviceToken) : Prop where
  created : t.createdAt.IsCommon
  updated : t.updatedAt.IsCommon
  invalidated : ∀ time ∈ t.invalidatedAt, time.IsCommon

theorem DeviceToken.reads {t : DeviceToken} (ht : t.IsCommon) :
    Reads DeviceToken.ofJson t.toJson t := by
  have htoken := Json.reads_text t.token
  have huser := t.user.reads
  have henvironment := t.environment.reads
  have hbundle := Json.reads_text t.bundle
  have hcreated := reads_instant ht.created
  have hupdated := reads_instant ht.updated
  have hinvalidated := reads_instant? ht.invalidated
  have hreason := Json.reads_text? t.invalidatedReason
  refine Json.record_reads (by decide) (.cons (htoken.fits _) (.cons (huser.fits _)
    (.cons (henvironment.fits _) (.cons (hbundle.fits _) (.cons (hcreated.fits _)
      (.cons (hupdated.fits _) (.cons (hinvalidated.fits _) (.cons (hreason.fits _) .nil))))))))
    fun found hfound => ?_
  simp [Source.required, Source.nullable, hfound, Members.get?_cons, htoken, huser, henvironment,
    hbundle, hcreated, hupdated, hinvalidated, hreason, bind, Except.bind]
  rfl

/-- The form of a record is for common times. -/
def DeviceToken.form : Form DeviceToken where
  toJson := DeviceToken.toJson
  ofJson := DeviceToken.ofJson
  IsKept _ := True
  InRange := DeviceToken.IsCommon

theorem DeviceToken.form_isFaithful : DeviceToken.form.IsFaithful :=
  .of_reads (fun _ _ _ _ => trivial) fun _ _ => DeviceToken.reads

/-! ## §5 Settings -/

theorem Layout.reads (dialect : Json.Dialect) (l : Layout) :
    Reads (Layout.decode dialect) l.toJson l := by
  have hlifecycle := Json.reads_path l.lifecycleDir
  have htelemetry := Json.reads_path l.telemetryDir
  refine Json.record_reads (by decide) (.cons (hlifecycle.fits _) (.cons (htelemetry.fits _) .nil))
    fun found hfound => ?_
  simp [Source.defaulted, hfound, Members.get?_cons, hlifecycle, htelemetry, bind, Except.bind]
  rfl

theorem StoreSettings.reads (dialect : Json.Dialect) (s : StoreSettings) :
    Reads (StoreSettings.decode dialect) s.toJson s := by
  have hpath := Json.reads_path s.path
  refine Json.record_reads (by decide) (.cons (hpath.fits _) .nil) fun found hfound => ?_
  simp [Source.required, hfound, Members.get?_cons, hpath]

theorem PushSettings.reads (dialect : Json.Dialect) (p : PushSettings) :
    Reads (PushSettings.decode dialect) p.toJson p := by
  have htimeout := Json.reads_word p.timeoutSecs
  have hsound := Json.reads_text p.sound
  refine Json.record_reads (by decide) (.cons (htimeout.fits _) (.cons (hsound.fits _) .nil))
    fun found hfound => ?_
  simp [Source.required, hfound, Members.get?_cons, htimeout, hsound, bind, Except.bind]
  rfl

theorem Settings.reads (dialect : Json.Dialect) (s : Settings) :
    Reads (Settings.decode dialect) s.toJson s := by
  have hlayout := s.layout.reads dialect
  have hstore := s.store.reads dialect
  have hpush := s.push.reads dialect
  refine Json.record_reads (by simp [Json.field]) (.cons (hlayout.fits _) (.cons (hstore.fits _)
    (.cons (hpush.fits _) .nil))) fun found hfound => ?_
  simp [Source.defaulted, hfound, Members.get?_cons, hlayout, hstore, hpush, bind, Except.bind]
  rfl

/-! ## §6 Notifications -/

namespace Push

/-- A payload whose data are JSON values as they are kept. -/
def Payload.IsKept (p : Payload) : Prop := InOrder (.object p.data)

theorem Payload.reads {p : Payload} (hp : p.IsKept) : Reads Payload.ofJson p.toJson p := by
  have htitle := Json.reads_text p.title
  have hbody := Json.reads_text p.body
  have hsound := Json.reads_text? p.sound
  have hdata := Json.reads_members hp
  refine Json.record_reads (by decide) (.cons (htitle.fits _) (.cons (hbody.fits _)
    (.cons (hsound.fits _) (.cons (hdata.fits _) .nil)))) fun found hfound => ?_
  simp [Source.required, Source.defaulted, hfound, Members.get?_cons, htitle, hbody, hsound, hdata,
    bind, Except.bind]
  rfl

/-- The data that are read out of a JSON value in order are kept so. -/
theorem Payload.isKept_of_ofJson {v : Value} {p : Payload} (hv : InOrder v)
    (h : Payload.ofJson v = .ok p) : p.IsKept := by
  obtain ⟨s, hbuild, hs⟩ := Json.exists_source hv h
  simp only [Json.bind_eq_ok] at hbuild
  obtain ⟨title, -, body, -, sound, -, data, hdata, hp⟩ := hbuild
  obtain rfl := Except.ok.inj hp
  rcases Json.defaulted_eq_ok hdata with rfl | ⟨w, hw, hread⟩
  · exact .object .nil nofun
  · have hin := hs _ _ w hw
    cases w with
    | object ms =>
      obtain rfl := Except.ok.inj hread
      exact hin
    | null | bool | number | string | array => cases hread

/-- The form of a payload, whose data are JSON values. -/
def Payload.form : Form Payload where
  toJson := Payload.toJson
  ofJson := Payload.ofJson
  IsKept := Payload.IsKept
  InRange _ := True

theorem Payload.form_isFaithful : Payload.form.IsFaithful :=
  .of_reads (fun _ _ => Payload.isKept_of_ofJson) fun _ hp _ => Payload.reads hp

theorem RunOutcome.reads (o : RunOutcome) : Reads RunOutcome.ofJson o.toJson o := by
  cases o with
  | completed => exact Json.tagged_reads rfl (by decide) .nil fun _ _ => rfl
  | failed error =>
    have herror := Json.reads_text? error
    refine Json.tagged_reads rfl (by decide) (.cons (herror.fits _) .nil) fun found hfound => ?_
    simp [Source.nullable, hfound, Members.get?_cons, herror]

theorem RunNotice.reads (n : RunNotice) : Reads RunNotice.ofJson n.toJson n := by
  have hrun := n.taskRun.reads
  have huser := n.user.reads
  have houtcome := n.outcome.reads
  refine Json.record_reads (by decide) (.cons (hrun.fits _) (.cons (huser.fits _)
    (.cons (houtcome.fits _) .nil))) fun found hfound => ?_
  simp [Source.required, hfound, Members.get?_cons, hrun, huser, houtcome, bind, Except.bind]
  rfl

end Push

/-! ## §7 All forms -/

/-- The types that have a JSON form, each with its form. -/
def forms : List ((α : Type) × Form α) :=
  [⟨CompletionEvent, .total CompletionEvent.toJson CompletionEvent.ofJson⟩,
   ⟨Speaker, .total Speaker.toJson Speaker.ofJson⟩,
   ⟨Environment, .total Environment.toJson Environment.ofJson⟩,
   ⟨TaskRunId, .total TaskRunId.toJson TaskRunId.ofJson⟩,
   ⟨UserId, .total UserId.toJson UserId.ofJson⟩,
   ⟨DeviceToken, DeviceToken.form⟩,
   ⟨ActiveToken, .total ActiveToken.toJson ActiveToken.ofJson⟩,
   ⟨Registration, .total Registration.toJson Registration.ofJson⟩,
   ⟨Layout, .total Layout.toJson (Layout.decode Json.jsonDialect)⟩,
   ⟨StoreSettings, .total StoreSettings.toJson (StoreSettings.decode Json.jsonDialect)⟩,
   ⟨PushSettings, .total PushSettings.toJson (PushSettings.decode Json.jsonDialect)⟩,
   ⟨Settings, .total Settings.toJson (Settings.decode Json.jsonDialect)⟩,
   ⟨Push.Payload, Push.Payload.form⟩,
   ⟨Push.RunOutcome, .total Push.RunOutcome.toJson Push.RunOutcome.ofJson⟩,
   ⟨Push.RunNotice, .total Push.RunNotice.toJson Push.RunNotice.ofJson⟩]

/-- **Every form is faithful.** Whatever is written as a JSON value is read
back, and what is read out of a value is read once more out of what is
written for it. -/
theorem forms_faithful : ∀ f ∈ forms, f.2.IsFaithful := by
  simp only [forms, List.forall_mem_cons, List.not_mem_nil, false_implies, implies_true, and_true]
  exact
    ⟨Form.isFaithful_total CompletionEvent.reads, Form.isFaithful_total Speaker.reads,
      Form.isFaithful_total Environment.reads, Form.isFaithful_total TaskRunId.reads,
      Form.isFaithful_total UserId.reads, DeviceToken.form_isFaithful,
      Form.isFaithful_total ActiveToken.reads, Form.isFaithful_total Registration.reads,
      Form.isFaithful_total (Layout.reads _), Form.isFaithful_total (StoreSettings.reads _),
      Form.isFaithful_total (PushSettings.reads _), Form.isFaithful_total (Settings.reads _),
      Push.Payload.form_isFaithful, Form.isFaithful_total Push.RunOutcome.reads,
      Form.isFaithful_total Push.RunNotice.reads⟩

/-- A token with a time on a leap day, one in the last nanosecond of the year
9999 and one in the first second of the year 0. -/
def retired : DeviceToken where
  token := "naïve\n"
  user := ⟨""⟩
  environment := .development
  bundle := "app"
  createdAt := ⟨951827696, 120000000⟩
  updatedAt := ⟨253402300799, 999999999⟩
  invalidatedAt := some ⟨-62167219200, 0⟩
  invalidatedReason := none

theorem retired_is_read_back :
    retired.IsCommon ∧ DeviceToken.ofJson retired.toJson.sorted = .ok retired := by
  have hcommon : retired.IsCommon := by
    refine ⟨by decide, by decide, fun time htime => ?_⟩
    obtain rfl := Option.some.inj htime
    decide
  have hform : ⟨DeviceToken, DeviceToken.form⟩ ∈ forms :=
    .tail _ (.tail _ (.tail _ (.tail _ (.tail _ (.head _)))))
  exact ⟨hcommon, (forms_faithful _ hform).ofJson_encode retired trivial hcommon⟩

end Runwatch
