import Pivotal.Trust.HubCallbackCert

/-! Ticks of the enroller, one after another: what may fail in each, and what is left of an upload
that is still to be published. -/
namespace Trust
open Async (Written)
open Async.Program (Ensures Executes Leaves Succeeds Within executes_solo ensures_settle lift perform
  succeeds_answer succeeds_perform succeeds_pure within_lift within_perform within_pure)

/-- A call that neither uploads nor forgets. -/
def EnrollerOp.isQuiet : EnrollerOp → Bool
  | .uploadOutboundCertificate _ _ _ => false
  | .delKey => false
  | .setOnboardPending value => value
  | _ => true

def EnrollerOp.isUpload : EnrollerOp → Bool
  | .uploadOutboundCertificate _ _ _ => true
  | _ => false

namespace HubCallbackCertEnroller

/-- The flag in Redis, the field of the process, and what is told of the Connection Manager: that it
holds a signed certificate that was uploaded since it last onboarded, and the calls to onboard. -/
structure World where
  flag : Bool
  onboardPending : Bool
  owed : Bool
  onboards : ℕ
  deriving DecidableEq

namespace World

def initial : World := ⟨false, false, false, 0⟩

/-- A new process: what was in memory is lost. -/
def restart (w : World) : World := { w with onboardPending := false }

/-- What the enroller reads is there. What the Connection Manager and Vault answer is not told. -/
def Shows (w : World) : (op : EnrollerOp) → EnrollerAnswer op → Prop
  | .existsKey, a => ∀ count, a = .ok count → (count == 1) = w.flag
  | .onboardPending, a => a = w.onboardPending
  | _, _ => True

/-- An upload that was made, with the enrollment that it left if there is an answer. -/
def uploaded (w : World) : Written String OutboundEnrollment → World
  | .done enrollment =>
    { w with owed := w.owed || enrollment.state = OutboundEnrollmentState.certSigned }
  | .lost _ => { w with owed := true }
  | .rejected _ => w

def next (w : World) : (op : EnrollerOp) → EnrollerAnswer op → World
  | .uploadOutboundCertificate _ _ _, a => w.uploaded a
  | .onboard _, a => { w with owed := a.applies w.owed false, onboards := w.onboards + 1 }
  | .setKey, a => { w with flag := a.applies w.flag true }
  | .delKey, a => { w with flag := a.applies w.flag false }
  | .setOnboardPending value, _ => { w with onboardPending := value }
  | _, _ => w

end World

/-- Which answers there are, and in which states the process may be killed. -/
structure Faults where
  answers : World → (op : EnrollerOp) → EnrollerAnswer op → Prop
  kills : World → Prop

/-- Every pattern of failures. -/
def Faults.any : Faults := ⟨fun _ _ _ => True, fun _ => True⟩

def Faults.Answers (faults : Faults) (w : World) (op : EnrollerOp) (a : EnrollerAnswer op)
    (w' : World) : Prop :=
  w.Shows op a ∧ faults.answers w op a ∧ w' = w.next op a

/-- What there is after ticks that settle, and ticks in which the process is killed. It is killed
between two ticks if it is killed before the first call. -/
inductive Reached (settings : Settings) (faults : Faults) : World → Prop
  | initial : Reached settings faults .initial
  | tick {w w' : World} {now : Js.Date} {r : Except String Outcome} :
      Reached settings faults w →
      (renewIfNeeded settings now).Executes faults.Answers w r w' → Reached settings faults w'
  | killed {w w' : World} {now : Js.Date} : Reached settings faults w →
      (renewIfNeeded settings now).Leaves faults.Answers w w' → faults.kills w' →
      Reached settings faults w'.restart

/-- The call succeeded: a CSR is there, the certificate is accepted, and the CA is registered. -/
def Succeeded : (op : EnrollerOp) → EnrollerAnswer op → Prop
  | .listOutboundEnrollments _, a => a.isOk = true
  | .getDfspCa _, a => ∃ ca, a = .ok ca ∧ ca.rootCertificate.any isCertificate = true
  | .createOutboundCsr _, a => ∃ created, a = .done created ∧ hasCsr created = true
  | .uploadOutboundCertificate _ _ _, a =>
    ∃ enrollment, a = .done enrollment ∧ enrollment.state = OutboundEnrollmentState.certSigned
  | .onboard _, a => a = .done ()
  | .signCertificate _ _ _ _, a => a.isOk = true
  | .existsKey, a => a.isOk = true
  | .setKey, a => a = .done ()
  | .delKey, a => a = .done ()
  | _, _ => True

def successful : Faults := ⟨fun _ => Succeeded, fun _ => False⟩

/-- The next tick in which all calls succeed onboards. -/
def NextPublishes (settings : Settings) (w : World) : Prop :=
  ∀ now r w', (renewIfNeeded settings now).Executes successful.Answers w r w' →
    w.onboards < w'.onboards

/-- It is known in the process or in Redis. -/
def World.Knows (w : World) : Prop := w.flag = true ∨ w.onboardPending = true

/-- An upload that is made is answered, unless it is known already that one is to be published, and
the process is not killed while only it knows. -/
def Faults.remembered : Faults where
  answers w op a := match op, a with
    | .uploadOutboundCertificate _ _ _, .lost _ => w.Knows
    | _, _ => True
  kills w := w.owed = true → w.flag = true

/-- What is owed is known. -/
def World.Remembers (w : World) : Prop := w.owed = true → w.Knows

section Remembering

variable (settings : Settings) {w : World}

theorem remembers_next {op : EnrollerOp} (hop : op.isQuiet = true) {a : EnrollerAnswer op}
    {w' : World} (hw : w.Remembers) (ha : Faults.remembered.Answers w op a w') : w'.Remembers := by
  obtain ⟨-, -, rfl⟩ := ha
  cases op with
  | uploadOutboundCertificate => cases hop
  | delKey => cases hop
  | setOnboardPending value => exact fun _ => .inr hop
  | onboard =>
    intro howed
    rcases a.applies_cases w.owed false with heq | ⟨-, heq⟩
    · exact absurd (heq.symm.trans howed) Bool.false_ne_true
    · exact hw (heq.symm.trans howed)
  | setKey =>
    intro howed
    rcases a.applies_cases w.flag true with heq | ⟨-, heq⟩
    · exact .inl heq
    · rcases hw howed with hflag | hpending
      · exact .inl (heq.trans hflag)
      · exact .inr hpending
  | _ => exact hw

theorem Quiet.remembers {α : Type} {p : EnrollerProgram α} (hp : p.Within fun op => op.isQuiet = true)
    (hw : w.Remembers) : p.Ensures Faults.remembered.Answers w fun w' _ => w'.Remembers :=
  hp.ensures (fun _ _ _ _ hop hw ha => remembers_next hop hw ha) hw

theorem isSet_quiet : RedisFlag.isSet.Within fun op => op.isQuiet = true :=
  Within.tryCatch (Within.answered (by rfl) fun _ => trivial) fun _ => trivial

theorem set_quiet : RedisFlag.set.Within fun op => op.isQuiet = true :=
  Within.tryCatch ⟨by rfl, fun _ => trivial⟩ fun _ => trivial

theorem recallPending_quiet : recallPending.Within fun op => op.isQuiet = true := by
  refine (within_perform.mpr (by rfl)).bind ?_
  intro pending
  split
  · refine isSet_quiet.bind ?_
    intro isSet
    split
    · exact within_perform.mpr (by rfl)
    · trivial
  · trivial

theorem caRegistered_quiet : (caRegistered settings).Within fun op => op.isQuiet = true :=
  (Within.tryCatch (Within.answered (by rfl) fun _ => within_pure _) fun _ => within_pure _).bind
    fun _ => within_pure _

theorem pendingCsr_quiet (enrollments : List OutboundEnrollment)
    (current : Option OutboundEnrollment) :
    (pendingCsr settings enrollments current).Within fun op => op.isQuiet = true := by
  unfold pendingCsr
  dsimp only
  split
  · trivial
  · exact Within.answered (by rfl) fun created => Within.unless trivial

theorem clear_settled : RedisFlag.clear.Within fun op => op.isUpload = false :=
  Within.tryCatch ⟨by rfl, fun _ => trivial⟩ fun _ => trivial

/-- Where nothing is owed, nothing but an upload changes that. -/
theorem owed_next {op : EnrollerOp} (hop : op.isUpload = false) {a : EnrollerAnswer op}
    (hw : w.owed = false) : (w.next op a).owed = false := by
  cases op with
  | uploadOutboundCertificate => cases hop
  | onboard =>
    rcases a.applies_cases w.owed false with heq | ⟨-, heq⟩
    · exact heq
    · exact heq.trans hw
  | _ => exact hw

theorem publish_remembers (hw : w.Remembers) :
    (publish settings).Ensures Faults.remembered.Answers w fun w' _ => w'.Remembers := by
  intro a w' ha
  have hw' : w'.Remembers := remembers_next (by rfl) hw ha
  cases a with
  | done u =>
    obtain ⟨-, -, rfl⟩ := ha
    have hforget : (do perform (EnrollerOp.setOnboardPending false); RedisFlag.clear :
        EnrollerProgram Unit).Within fun op => op.isUpload = false :=
      (within_perform.mpr (by rfl)).bind fun _ => clear_settled
    have hsettled : (do perform (EnrollerOp.setOnboardPending false); RedisFlag.clear :
        EnrollerProgram Unit).Ensures Faults.remembered.Answers
          (w.next (.onboard settings.dfspId) (.done u)) fun w' _ => w'.owed = false := by
      refine hforget.ensures ?_ rfl
      rintro w op a w' hop howed ⟨-, -, rfl⟩
      exact owed_next hop howed
    refine hsettled.mono ?_
    intro w' _ hfree howed
    exact absurd (hfree.symm.trans howed) Bool.false_ne_true
  | lost message => exact hw'
  | rejected message => exact hw'

theorem onboardLoop_remembers (left : ℕ) (hw : w.Remembers) :
    (onboardLoop settings left).Ensures Faults.remembered.Answers w fun w' _ => w'.Remembers := by
  induction left generalizing w with
  | zero =>
    refine ensures_settle.mpr ((publish_remembers settings hw).mono ?_)
    rintro w' (message | u) hw'
    · exact hw'
    · exact hw'
  | succ left ih =>
    refine ensures_settle.mpr ((publish_remembers settings hw).mono ?_)
    rintro w' (message | u) hw'
    · refine Ensures.bind (Quiet.remembers (within_perform.mpr (by rfl)) hw') ?_
      intro _ w'' hw''
      exact ih hw''
    · exact hw'

/-- Once the process knows, it does not matter what was known. -/
theorem setOnboardPending_remembers :
    (perform (EnrollerOp.setOnboardPending true) : EnrollerProgram Unit).Ensures
      Faults.remembered.Answers w fun w' _ => w'.Remembers := by
  rintro _ w' ⟨-, -, rfl⟩
  exact fun _ => .inr rfl

theorem renew_remembers (enrollments : List OutboundEnrollment)
    (current : Option OutboundEnrollment) (hw : w.Remembers) :
    (renew settings enrollments current).Ensures Faults.remembered.Answers w
      fun w' _ => w'.Remembers := by
  refine Ensures.bind (Quiet.remembers (pendingCsr_quiet settings enrollments current) hw) ?_
  intro pending w₁ hw₁
  refine Ensures.bind (Quiet.remembers (within_perform.mpr (by rfl)) hw₁) ?_
  intro answer w₂ hw₂
  refine Ensures.bind (Quiet.remembers (within_lift answer) hw₂) ?_
  intro certificatePem w₃ hw₃ a w₄ ha
  obtain ⟨-, hanswered, rfl⟩ := ha
  cases a with
  | lost message => exact fun _ => hanswered
  | rejected message => exact hw₃
  | done uploaded =>
    show Ensures _ (if uploaded.state ≠ OutboundEnrollmentState.certSigned then _ else _) _ _
    split_ifs with hstate
    · have hsame : w₃.uploaded (.done uploaded) = w₃ := by
        simp [World.uploaded, hstate]
      show (w₃.uploaded (.done uploaded)).Remembers
      rw [hsame]
      exact hw₃
    · refine Ensures.bind setOnboardPending_remembers ?_
      intro _ w₅ hw₅
      refine Ensures.bind (Quiet.remembers set_quiet hw₅) ?_
      intro _ w₆ hw₆
      refine Ensures.bind (onboardLoop_remembers settings _ hw₆) ?_
      exact fun _ _ hw₇ => hw₇

theorem renewIfNeeded_remembers (now : Js.Date) (hw : w.Remembers) :
    (renewIfNeeded settings now).Ensures Faults.remembered.Answers w fun w' _ => w'.Remembers := by
  refine Ensures.bind (Quiet.remembers (within_perform.mpr (by rfl)) hw) ?_
  intro answer w₁ hw₁
  refine Ensures.bind (Quiet.remembers (within_lift answer) hw₁) ?_
  intro enrollments w₂ hw₂
  refine Ensures.bind (Quiet.remembers recallPending_quiet hw₂) ?_
  intro _ w₃ hw₃
  refine Ensures.bind (Quiet.remembers (within_perform.mpr (by rfl)) hw₃) ?_
  intro pending w₄ hw₄
  split
  · exact hw₄
  · refine Ensures.bind (Quiet.remembers (caRegistered_quiet settings) hw₄) ?_
    intro registered w₅ hw₅
    split
    · exact hw₅
    · split
      · refine Ensures.bind (onboardLoop_remembers settings _ hw₅) ?_
        exact fun _ _ hw₆ => hw₆
      · exact renew_remembers settings enrollments _ hw₅

end Remembering

section Publishing

variable (settings : Settings) {w : World}

theorem isSet_succeeds : RedisFlag.isSet.Succeeds successful.Answers w
    fun w' isSet => isSet = w.flag ∧ w' = w := by
  refine Succeeds.tryCatch (Succeeds.answered ?_)
  rintro a w' ⟨hshows, hok, rfl⟩
  cases a with
  | error message => cases hok
  | ok count => exact ⟨count, rfl, succeeds_pure ⟨hshows count rfl, rfl⟩⟩

theorem write_succeeds {op : EnrollerOp} {x : EnrollerAnswer op → Except String Unit}
    (hok : ∀ a, Succeeded op a → x a = .ok ()) (hnext : ∀ a, (w.next op a).onboards = w.onboards) :
    (tryCatch (perform op >>= fun a => lift (x a)) fun _ => pure () : EnrollerProgram Unit).Succeeds
      successful.Answers w fun w' _ => w'.onboards = w.onboards := by
  apply Succeeds.tryCatch
  apply succeeds_answer
  intro a w' ha
  obtain ⟨-, hdone, rfl⟩ := ha
  exact ⟨(), hok a hdone, hnext a⟩

theorem set_succeeds : RedisFlag.set.Succeeds successful.Answers w
    fun w' _ => w'.onboards = w.onboards :=
  write_succeeds (fun _ h => congrArg Written.toExcept h) fun _ => rfl

theorem clear_succeeds : RedisFlag.clear.Succeeds successful.Answers w
    fun w' _ => w'.onboards = w.onboards :=
  write_succeeds (fun _ h => congrArg Written.toExcept h) fun _ => rfl

/-- What is known in Redis is known in the process from then on. -/
theorem recallPending_succeeds (hw : w.Knows) : recallPending.Succeeds successful.Answers w
    fun w' _ => w'.onboardPending = true ∧ w'.onboards = w.onboards := by
  have hread : (perform EnrollerOp.onboardPending : EnrollerProgram Bool).Succeeds
      successful.Answers w fun w' pending => pending = w.onboardPending ∧ w' = w := by
    refine succeeds_perform ?_
    rintro a w' ⟨hshows, -, rfl⟩
    exact ⟨hshows, rfl⟩
  refine hread.bind ?_
  rintro pending w' ⟨rfl, rfl⟩
  split
  · rename_i hpending
    refine isSet_succeeds.bind ?_
    rintro isSet w'' ⟨rfl, rfl⟩
    split
    · exact succeeds_perform fun _ _ ha => ha.2.2 ▸ ⟨rfl, rfl⟩
    · rename_i hflag
      rcases hw with hknown | hknown
      · exact absurd hknown hflag
      · simp [hknown] at hpending
  · rename_i hpending
    exact succeeds_pure ⟨by simpa using hpending, rfl⟩

theorem caRegistered_succeeds : (caRegistered settings).Succeeds successful.Answers w
    fun w' registered => registered = true ∧ w' = w := by
  have hca : (tryCatch (do
        let ca ← lift (← perform (EnrollerOp.getDfspCa settings.dfspId))
        return some ca) fun _ => pure none : EnrollerProgram (Option DfspCa)).Succeeds
      successful.Answers w fun w' ca =>
        (ca.bind DfspCa.rootCertificate).any isCertificate = true ∧ w' = w := by
    refine Succeeds.tryCatch (Succeeds.answered ?_)
    rintro a w' ⟨-, ⟨ca, rfl, hca⟩, rfl⟩
    exact ⟨ca, rfl, succeeds_pure ⟨hca, rfl⟩⟩
  exact hca.bind fun _ _ h => succeeds_pure h

theorem pendingCsr_succeeds (enrollments : List OutboundEnrollment)
    (current : Option OutboundEnrollment) :
    (pendingCsr settings enrollments current).Succeeds successful.Answers w fun w' _ => w' = w := by
  unfold pendingCsr
  dsimp only
  split
  · exact succeeds_pure rfl
  · refine Succeeds.answered ?_
    rintro a w' ⟨-, ⟨created, rfl, hcsr⟩, rfl⟩
    refine ⟨created, rfl, ?_⟩
    rw [hcsr]
    exact succeeds_pure rfl

theorem onboard_succeeds : (onboard settings).Succeeds successful.Answers w
    fun w' _ => w.onboards < w'.onboards := by
  have hpublish : (publish settings).Succeeds successful.Answers w
      fun w' _ => w.onboards < w'.onboards := by
    refine Succeeds.answered ?_
    rintro a w' ⟨-, hdone, rfl⟩
    refine ⟨(), congrArg Written.toExcept hdone, ?_⟩
    refine Succeeds.bind (succeeds_perform (R := fun w' _ => w'.onboards = w.onboards + 1)
      fun _ _ ha => ha.2.2 ▸ rfl) ?_
    intro _ w' hw'
    refine clear_succeeds.mono ?_
    intro w'' _ hw''
    omega
  exact Succeeds.tryCatch hpublish

theorem renew_succeeds (enrollments : List OutboundEnrollment)
    (current : Option OutboundEnrollment) :
    (renew settings enrollments current).Succeeds successful.Answers w
      fun w' _ => w.onboards < w'.onboards := by
  refine (pendingCsr_succeeds settings enrollments current).bind ?_
  rintro pending w₀ rfl
  refine Succeeds.answered ?_
  rintro a w₀ ⟨-, hok, rfl⟩
  cases a with
  | error message => cases hok
  | ok certificatePem =>
    refine ⟨certificatePem, rfl, Succeeds.answered ?_⟩
    rintro _ w₁ ⟨-, ⟨uploaded, rfl, hstate⟩, hw₁⟩
    refine ⟨uploaded, rfl, ?_⟩
    have honboards : w₁.onboards = w₀.onboards := hw₁ ▸ rfl
    rw [if_neg (not_not.mpr hstate)]
    refine Succeeds.bind (succeeds_perform (R := fun w' _ => w'.onboards = w₁.onboards)
      fun _ _ ha => ha.2.2 ▸ rfl) ?_
    intro _ w₂ hw₂
    refine set_succeeds.bind ?_
    intro _ w₃ hw₃
    refine (onboard_succeeds settings).bind ?_
    intro _ w₄ hw₄
    exact succeeds_pure (by omega)

theorem nextPublishes_of_knows (hw : w.Knows) : NextPublishes settings w := by
  intro now r w' hrun
  have hsucceeds : (renewIfNeeded settings now).Succeeds successful.Answers w
      fun w' _ => w.onboards < w'.onboards := by
    refine Succeeds.answered ?_
    rintro a _ ⟨-, hok, rfl⟩
    cases a with
    | error message => cases hok
    | ok enrollments =>
      refine ⟨enrollments, rfl, ?_⟩
      refine (recallPending_succeeds hw).bind ?_
      rintro _ w₁ ⟨hpending, hw₁⟩
      have hread : (perform EnrollerOp.onboardPending : EnrollerProgram Bool).Succeeds
          successful.Answers w₁ fun w' pending => pending = true ∧ w' = w₁ := by
        refine succeeds_perform ?_
        rintro pending w' ⟨hshows, -, rfl⟩
        exact ⟨Eq.trans hshows hpending, rfl⟩
      refine hread.bind ?_
      rintro _ w₁ ⟨rfl, rfl⟩
      rw [Bool.not_true, Bool.and_false, if_neg Bool.false_ne_true]
      refine (caRegistered_succeeds settings).bind ?_
      rintro _ w₁ ⟨rfl, rfl⟩
      rw [Bool.not_true, if_neg Bool.false_ne_true]
      split
      · refine (onboard_succeeds settings).bind ?_
        intro _ w₂ hw₂
        exact succeeds_pure (by omega)
      · refine (renew_succeeds settings enrollments _).mono ?_
        intro w₂ _ hw₂
        omega
  obtain ⟨_, -, hlt⟩ := Ensures.of_executes hsucceeds hrun
  exact hlt

end Publishing

section Runs

variable {settings : Settings} {w : World}

theorem Reached.remembers (h : Reached settings .remembered w) : w.Remembers := by
  induction h with
  | initial => exact fun howed => absurd howed Bool.false_ne_true
  | tick _ hrun ih => exact Ensures.of_executes (renewIfNeeded_remembers settings _ ih) hrun
  | killed _ _ hkill _ => exact fun howed => .inl (hkill howed)

/-- As long as an upload is answered, or known to be owed, and no process is killed that alone knows,
a certificate that was uploaded is published by the next tick that fails in nothing. -/
theorem upload_published (h : Reached settings .remembered w) (howed : w.owed = true) :
    NextPublishes settings w :=
  nextPublishes_of_knows settings (h.remembers howed)

end Runs

section Sample

/-- A certificate is valid for a year from the start. -/
def sampleSettings : Settings where
  dfspId := "pivotal"
  commonName := "web-inbound"
  pkiMount := "pki"
  pkiRole := "hub"
  renewBeforeDays := 30
  notAfter := fun _ => some (365 * 86400000)

def sampleEnrollment : OutboundEnrollment :=
  ⟨1, OutboundEnrollmentState.certSigned, some "csr", some "BEGIN CERTIFICATE"⟩

/-- Calls that succeed, but for an upload and an onboarding that go as given. -/
def sampleAnswer (upload : Written String OutboundEnrollment) (onboarding : Written String Unit)
    (w : World) : (op : EnrollerOp) → EnrollerAnswer op
  | .listOutboundEnrollments _ => .ok (if w.owed then [sampleEnrollment] else [])
  | .getDfspCa _ => .ok ⟨some "BEGIN CERTIFICATE"⟩
  | .createOutboundCsr _ => .done ⟨1, OutboundEnrollmentState.csrLoaded, some "csr", none⟩
  | .uploadOutboundCertificate _ _ _ => upload
  | .onboard _ => onboarding
  | .signCertificate _ _ _ _ => .ok "BEGIN CERTIFICATE"
  | .existsKey => .ok (if w.flag then 1 else 0)
  | .setKey => .done ()
  | .delKey => .done ()
  | .sleep _ => ()
  | .onboardPending => w.onboardPending
  | .setOnboardPending _ => ()

def samplePolicy (upload : Written String OutboundEnrollment) (onboarding : Written String Unit)
    (w : World) (op : EnrollerOp) : EnrollerAnswer op × World :=
  (sampleAnswer upload onboarding w op, w.next op (sampleAnswer upload onboarding w op))

theorem shows_sampleAnswer (upload : Written String OutboundEnrollment)
    (onboarding : Written String Unit) (w : World) (op : EnrollerOp) :
    w.Shows op (sampleAnswer upload onboarding w op) := by
  cases op with
  | existsKey =>
    intro count hcount
    rw [← Except.ok.inj hcount]
    cases w.flag <;> rfl
  | onboardPending => rfl
  | _ => trivial

/-- A tick in which all calls succeed. -/
def sampleTick (w : World) : World × List (Async.Event EnrollerOp EnrollerAnswer) ×
    Except String Outcome :=
  (renewIfNeeded sampleSettings 0).solo (samplePolicy (.done sampleEnrollment) (.done ())) w []

theorem executes_sampleTick (w : World) : (renewIfNeeded sampleSettings 0).Executes
    successful.Answers w (sampleTick w).2.2 (sampleTick w).1 := by
  refine executes_solo ?_ _ _ _
  intro w op
  refine ⟨shows_sampleAnswer _ _ w op, ?_, rfl⟩
  cases op with
  | getDfspCa => exact ⟨_, rfl, by decide⟩
  | createOutboundCsr => exact ⟨_, rfl, by decide⟩
  | uploadOutboundCertificate => exact ⟨sampleEnrollment, rfl, rfl⟩
  | sleep => trivial
  | onboardPending => trivial
  | setOnboardPending => trivial
  | _ => rfl

/-- Onboarding fails three times, and the process is replaced: the flag tells the next one. -/
theorem upload_published_sample : ∃ w, Reached sampleSettings .remembered w ∧ w.owed = true ∧
    w.onboards < (sampleTick w).1.onboards := by
  have hpolicy : ∀ w op, Faults.remembered.Answers w op
      (samplePolicy (.done sampleEnrollment) (.rejected "timeout") w op).1
      (samplePolicy (.done sampleEnrollment) (.rejected "timeout") w op).2 := by
    intro w op
    refine ⟨shows_sampleAnswer _ _ w op, ?_, rfl⟩
    cases op <;> trivial
  have hfailed : Reached sampleSettings .remembered ⟨true, true, true, 3⟩ := by
    have hrun := executes_solo hpolicy (renewIfNeeded sampleSettings 0) .initial []
    have hleft : ((renewIfNeeded sampleSettings 0).solo
        (samplePolicy (.done sampleEnrollment) (.rejected "timeout")) .initial []).1 =
          ⟨true, true, true, 3⟩ := by
      decide +kernel
    rw [hleft] at hrun
    exact .tick .initial hrun
  have hkilled : Reached sampleSettings .remembered ⟨true, false, true, 3⟩ :=
    .killed hfailed (.stop (renewIfNeeded sampleSettings 0) _) fun _ => rfl
  exact ⟨_, hkilled, rfl, upload_published hkilled rfl _ _ _ (executes_sampleTick _)⟩

/-- The answer to an upload that was made does not arrive: the next tick sees a certificate that is
valid, and nothing to publish. -/
theorem not_upload_published : ¬ ∀ w, Reached sampleSettings .any w → w.owed = true →
    NextPublishes sampleSettings w := by
  intro h
  have hpolicy : ∀ w op, Faults.any.Answers w op
      (samplePolicy (.lost "timeout") (.done ()) w op).1
      (samplePolicy (.lost "timeout") (.done ()) w op).2 :=
    fun w op => ⟨shows_sampleAnswer _ _ w op, trivial, rfl⟩
  have hrun := executes_solo hpolicy (renewIfNeeded sampleSettings 0) .initial []
  have hleft : ((renewIfNeeded sampleSettings 0).solo (samplePolicy (.lost "timeout") (.done ()))
      .initial []).1 = ⟨false, false, true, 0⟩ := by
    decide +kernel
  rw [hleft] at hrun
  have hlt := h _ (.tick .initial hrun) rfl _ _ _ (executes_sampleTick _)
  revert hlt
  decide +kernel

end Sample

end HubCallbackCertEnroller
end Trust
