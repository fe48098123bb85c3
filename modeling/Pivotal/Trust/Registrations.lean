import Pivotal.Async.Alone
import Pivotal.Async.Pool
import Pivotal.Trust.CaRegistration

/-! What the Connection Manager holds while replicas register the CA, some of their calls fail, and
others register DFSPs of their own. -/
namespace Trust
open Async.Program (Within Ensures Succeeds within_pure within_perform)
open HubCallbackCertEnroller (isCertificate)
open McmCaRegistrationScheduler
open McmDfspRegistrar (listedId Outcome)
open Participant (ParticipantKey ParticipantKeyRole)

variable {ρ : Type}

/-- The Connection Manager, and the set of the registrar of each replica. -/
structure Mcm (ρ : Type) where
  dfsps : List McmDfsp
  ca : String → RegisteredCa
  known : ρ → List String

/-- What the reads of a pass may find. -/
structure CaSources where
  file : String → Prop
  intermediates : Option String → Prop
  keys : List ParticipantKey → Prop

namespace Mcm

def ids (s : Mcm ρ) : List String := s.dfsps.filterMap listedId

def Lists (s : Mcm ρ) (dfspId : String) : Prop :=
  ∃ dfsp ∈ s.dfsps, dfsp.id.or dfsp.dfspId = some dfspId

theorem lists_of_mem_ids {s : Mcm ρ} {dfspId : String} (h : dfspId ∈ s.ids) : s.Lists dfspId := by
  obtain ⟨dfsp, hdfsp, hid⟩ := List.mem_filterMap.mp h
  exact ⟨dfsp, hdfsp, (Option.filter_eq_some_iff.mp hid).1⟩

def add (s : Mcm ρ) (dfsp : McmDfsp) : Mcm ρ := { s with dfsps := s.dfsps ++ [dfsp] }

theorem Lists.add {s : Mcm ρ} {dfspId : String} (h : s.Lists dfspId) (dfsp : McmDfsp) :
    (s.add dfsp).Lists dfspId := by
  obtain ⟨dfsp', hmem, hid⟩ := h
  exact ⟨dfsp', List.mem_append_left _ hmem, hid⟩

theorem lists_add_self {s : Mcm ρ} {dfsp : McmDfsp} {dfspId : String}
    (h : dfsp.id.or dfsp.dfspId = some dfspId) : (s.add dfsp).Lists dfspId :=
  ⟨dfsp, List.mem_append_right _ List.mem_cons_self, h⟩

def register (s : Mcm ρ) (dfspId : String) (ca : RegisteredCa) : Mcm ρ :=
  { s with ca := Function.update s.ca dfspId ca }

variable [DecidableEq ρ]

def remember (s : Mcm ρ) (replica : ρ) (dfspId : String) : Mcm ρ :=
  { s with known := Function.update s.known replica (dfspId :: s.known replica) }

theorem mem_known_remember {s : Mcm ρ} {replica replica' : ρ} {dfspId id : String} :
    id ∈ (s.remember replica dfspId).known replica' ↔
      replica' = replica ∧ id = dfspId ∨ id ∈ s.known replica' := by
  by_cases h : replica' = replica
  · subst h
    simp [remember]
  · simp [remember, h]

/-- What a call answers and does. A write that is refused changes nothing. -/
def Performs (sources : CaSources) (s : Mcm ρ) :
    (op : RegistrationOp ρ) → RegistrationAnswer op → Mcm ρ → Prop
  | .readFile, a, s' => s' = s ∧ ∀ pem, a = .ok pem → sources.file pem
  | .readIntermediates, a, s' => s' = s ∧ ∀ chain, a = .ok chain → sources.intermediates chain
  | .findAll, a, s' => s' = s ∧ ∀ keys, a = .ok keys → sources.keys keys
  | .known replica dfspId, a, s' => s' = s ∧ a = decide (dfspId ∈ s.known replica)
  | .addKnown replica dfspId, _, s' => s' = s.remember replica dfspId
  | .listDfsps, a, s' => s' = s ∧ ∀ dfsps, a = .ok dfsps → dfsps = s.dfsps
  | .createDfsp request, a, s' => s' = s ∧ a.isRejected = true ∨
      ∃ dfsp : McmDfsp, dfsp.id.or dfsp.dfspId = some request.dfspId ∧ s' = a.applies s (s.add dfsp)
  | .getDfspCa dfspId, a, s' => s' = s ∧ ∀ ca, a = .ok ca → ca = s.ca dfspId
  | .registerCa dfspId ca, a, s' => s' = s ∧ a.isRejected = true ∨
      s.Lists dfspId ∧ s' = a.applies s (s.register dfspId ca)

/-- Nothing fails: a DFSP is refused only where it is on the list, and a CA only where it is not. -/
def Answers (s : Mcm ρ) : (op : RegistrationOp ρ) → RegistrationAnswer op → Prop
  | .readFile, a => ∃ pem, a = .ok pem
  | .readIntermediates, a => ∃ chain, a = .ok chain
  | .findAll, a => ∃ keys, a = .ok keys
  | .listDfsps, a => ∃ dfsps, a = .ok dfsps
  | .createDfsp request, a => a = .done () ∨ request.dfspId ∈ s.ids
  | .getDfspCa _, a => ∃ ca, a = .ok ca
  | .registerCa dfspId _, a => a = .done () ∨ ¬ s.Lists dfspId
  | _, _ => True

end Mcm

theorem samePem_self (pem : String) : samePem (some pem) pem = true := by
  simp [samePem, JwsKeyPublishScheduler.samePem]

theorem isCurrent_self (certificate : String) (chain : Option String) :
    isCurrent (some ⟨some certificate, chain⟩) certificate chain = true := by
  simp [isCurrent, samePem_self]

theorem nodup_tenants (settings : Settings) (keys : List ParticipantKey) :
    (tenants settings keys).Nodup := Js.Map.nodup _

/-- The file, the intermediates and the keys stay as they are. -/
def CaSources.fixed (file : String) (intermediates : Option String) (keys : List ParticipantKey) :
    CaSources := ⟨(· = file), (· = intermediates), (· = keys)⟩

/-! A pass of one replica, with nothing in between. -/

section Alone

variable [DecidableEq ρ] {replica : ρ} {settings : Settings} {sources : CaSources} {s : Mcm ρ}

/-- The CA that a call registers. -/
def RegistrationOp.registers : RegistrationOp ρ → Bool
  | .registerCa _ _ => true
  | _ => false

theorem Mcm.Performs.ca {op : RegistrationOp ρ} {a : RegistrationAnswer op} {s' : Mcm ρ}
    (h : s.Performs sources op a s') (hop : op.registers = false) : s'.ca = s.ca := by
  cases op with
  | registerCa => cases hop
  | addKnown replica dfspId =>
    rw [show s' = _ from h]
    rfl
  | createDfsp request =>
    obtain ⟨rfl, -⟩ | ⟨dfsp, -, rfl⟩ := h
    · rfl
    · cases a <;> rfl
  | _ =>
    obtain ⟨rfl, -⟩ := h
    rfl

namespace McmDfspRegistrar

omit [DecidableEq ρ]

variable (replica)

theorem within_existsInMcm (dfspId : String) :
    (existsInMcm replica dfspId).Within fun op => op.registers = false := by
  refine Within.answered (by rfl) fun dfsps => Within.bind ?_ fun _ => within_perform.mpr (by rfl)
  refine Within.foldlM ?_ _
  exact fun _ id _ => within_perform.mpr (by rfl)

theorem within_create (settings : McmDfspRegistrar.Settings) (dfspId : String) :
    (create replica settings dfspId).Within fun op => op.registers = false := by
  refine Within.tryCatch (Within.answered (by rfl) fun _ => within_pure _) fun error => ?_
  refine (within_existsInMcm replica dfspId).bind fun present => ?_
  split
  · exact within_pure _
  · trivial

theorem within_ensureRegistered (settings : McmDfspRegistrar.Settings) (dfspId : String) :
    (ensureRegistered replica settings dfspId).Within fun op => op.registers = false := by
  unfold ensureRegistered
  split
  · exact within_pure _
  refine (within_perform.mpr (by rfl)).bind fun known => ?_
  split
  · exact within_pure _
  refine (within_existsInMcm replica dfspId).bind fun present => ?_
  split
  · exact within_pure _
  refine (within_create replica settings dfspId).bind fun created => ?_
  split
  · exact within_pure _
  · exact (within_perform.mpr (by rfl)).bind fun _ => within_pure _

end McmDfspRegistrar

theorem ensures_currentCa (fspId : String) :
    (currentCa fspId).Ensures (Mcm.Performs sources) s
      fun s' r => s' = s ∧ ∃ current, r = .ok current ∧
        ∀ ca, current = some ca → ca = s.ca fspId := by
  rintro (e | ca) s' ⟨rfl, hca⟩
  · exact ⟨rfl, none, rfl, by rintro ca ⟨⟩⟩
  · refine ⟨rfl, some ca, rfl, ?_⟩
    rintro ca' ⟨⟩
    exact hca ca rfl

theorem ensures_ensureRegistered (fspId : String) :
    (ensureRegistered replica settings fspId).Ensures (Mcm.Performs sources) s
      fun s' _ => s'.ca = s.ca := by
  refine Within.ensures (P := fun op => op.registers = false) ?_
    (fun _ _ _ _ hop hca h => (h.ca hop).trans hca) rfl
  unfold ensureRegistered
  split
  · exact within_pure _
  · exact (McmDfspRegistrar.within_ensureRegistered replica _ fspId).bind fun _ => within_pure _

/-- What is registered for one tenant, and when it counts as done. -/
theorem ensures_register {certificate : String} {chain : Option String} {fspId : String} :
    (register replica settings certificate chain fspId).Ensures (Mcm.Performs sources) s
      fun s' r => (∀ d, d ≠ fspId → s'.ca d = s.ca d) ∧
        (s'.ca fspId = s.ca fspId ∨ s'.ca fspId = ⟨some certificate, chain⟩) ∧
        ∀ registered, r = .ok registered →
          isCurrent (some (s'.ca fspId)) certificate chain = true := by
  refine Async.Program.ensures_bind.mpr ((ensures_ensureRegistered fspId).mono ?_)
  rintro s₁ result hca
  have hothers : ∀ d, d ≠ fspId → s₁.ca d = s.ca d := fun d _ => congrFun hca d
  have hown : s₁.ca fspId = s.ca fspId := congrFun hca fspId
  rcases result with e | ⟨⟩
  · exact ⟨hothers, .inl hown, by rintro b ⟨⟩⟩
  refine Async.Program.ensures_bind.mpr ((ensures_currentCa fspId).mono ?_)
  rintro s₂ r ⟨rfl, current, rfl, hcurrent⟩
  show Ensures _ (if isCurrent current certificate chain = true then _ else _) _ _
  split_ifs with hcorrect
  · refine ⟨hothers, .inl hown, fun _ _ => ?_⟩
    cases current with
    | none => cases hcorrect
    | some ca => rwa [← hcurrent ca rfl]
  · intro a s₃ hregister
    obtain ⟨rfl, hrejected⟩ | ⟨-, rfl⟩ := hregister
    · cases a with
      | rejected e => exact ⟨hothers, .inl hown, by rintro b ⟨⟩⟩
      | _ => cases hrejected
    have hothers' : ∀ d, d ≠ fspId →
        (s₂.register fspId ⟨some certificate, chain⟩).ca d = s.ca d := by
      intro d hd
      exact (Function.update_of_ne hd _ _).trans (hothers d hd)
    have hown' : (s₂.register fspId ⟨some certificate, chain⟩).ca fspId =
        ⟨some certificate, chain⟩ := Function.update_self ..
    cases a with
    | done u =>
      refine ⟨hothers', .inr hown', fun _ _ => ?_⟩
      show isCurrent (some (Mcm.ca (s₂.register fspId _) fspId)) certificate chain = true
      rw [hown']
      exact isCurrent_self certificate chain
    | lost e => exact ⟨hothers', .inr hown', by rintro b ⟨⟩⟩
    | rejected e => exact ⟨hothers, .inl hown, by rintro b ⟨⟩⟩

/-- What a pass has made of the tenants it has come to. -/
structure Registered (certificate : String) (chain : Option String) (s : Mcm ρ)
    (tenants : List String) (s' : Mcm ρ) (result : Result) : Prop where
  total : result.registered + result.alreadyCorrect + result.failed = tenants.length
  correct : result.registered + result.alreadyCorrect ≤
    (tenants.filter fun d => isCurrent (some (s'.ca d)) certificate chain).length
  own : ∀ d ∈ tenants, s'.ca d = s.ca d ∨ s'.ca d = ⟨some certificate, chain⟩
  others : ∀ d ∉ tenants, s'.ca d = s.ca d

omit [DecidableEq ρ] in
/-- One more tenant, which counts as done only where it holds the CA. -/
theorem Registered.snoc {certificate : String} {chain : Option String} {before : List String}
    {s₁ s₂ : Mcm ρ} {result result' : Result} {fspId : String} {n : ℕ}
    (h : Registered certificate chain s before s₁ result) (hnew : fspId ∉ before)
    (hothers : ∀ d, d ≠ fspId → s₂.ca d = s₁.ca d)
    (hown : s₂.ca fspId = s₁.ca fspId ∨ s₂.ca fspId = ⟨some certificate, chain⟩)
    (hcount : result'.registered + result'.alreadyCorrect =
      result.registered + result.alreadyCorrect + n)
    (hfailed : result'.failed + n = result.failed + 1)
    (hdone : n = 0 ∨ n = 1 ∧ isCurrent (some (s₂.ca fspId)) certificate chain = true) :
    Registered certificate chain s (before ++ [fspId]) s₂ result' := by
  have hbefore : ∀ d ∈ before, s₂.ca d = s₁.ca d := fun d hd => hothers d fun hx => hnew (hx ▸ hd)
  refine ⟨?_, ?_, fun d hd => ?_, fun d hd => ?_⟩
  · have htotal := h.total
    rw [List.length_append, List.length_singleton]
    omega
  · have hcorrect := h.correct
    have hfilter : before.filter (fun d => isCurrent (some (s₂.ca d)) certificate chain) =
        before.filter fun d => isCurrent (some (s₁.ca d)) certificate chain :=
      List.filter_congr fun d hd => by rw [hbefore d hd]
    rw [List.filter_append, List.length_append, hfilter, hcount]
    rcases hdone with rfl | ⟨rfl, hcurrent⟩
    · omega
    · have hlast : [fspId].filter (fun d => isCurrent (some (s₂.ca d)) certificate chain) =
          [fspId] := by
        simp [hcurrent]
      rw [hlast, List.length_singleton]
      omega
  · rcases List.mem_append.mp hd with hd | hd
    · rw [hbefore d hd]
      exact h.own d hd
    · obtain rfl := List.mem_singleton.mp hd
      rw [← h.others d hnew]
      exact hown
  · simp only [List.mem_append, List.mem_singleton, not_or] at hd
    rw [hothers d hd.2, h.others d hd.1]

theorem Registered.count {certificate : String} {chain : Option String} {before : List String}
    {s₁ : Mcm ρ} {result : Result} {fspId : String}
    (h : Registered certificate chain s before s₁ result) (hnew : fspId ∉ before) :
    (count replica settings certificate chain result fspId).Succeeds (Mcm.Performs sources) s₁
      fun s₂ result' => result'.tenants = result.tenants ∧
        Registered certificate chain s (before ++ [fspId]) s₂ result' := by
  refine Async.Program.ensures_settle.mpr (Async.Program.ensures_bind.mpr ?_)
  refine Ensures.mono ensures_register ?_
  rintro s₂ (e | registered) ⟨hothers, hown, hdone⟩
  · refine ⟨_, rfl, rfl, h.snoc (n := 0) hnew hothers hown rfl rfl (.inl rfl)⟩
  · have hcurrent := hdone registered rfl
    cases registered with
    | true =>
      refine ⟨_, rfl, rfl, h.snoc (n := 1) hnew hothers hown ?_ rfl (.inr ⟨rfl, hcurrent⟩)⟩
      simp only []
      omega
    | false =>
      refine ⟨_, rfl, rfl, h.snoc (n := 1) hnew hothers hown ?_ rfl (.inr ⟨rfl, hcurrent⟩)⟩
      rfl

theorem ensures_readPivotalCa (caPath : String) :
    (readPivotalCa caPath).Ensures (Mcm.Performs sources) s fun s' r =>
      s' = s ∧ ∀ pem, r = .ok pem → sources.file pem ∧ isCertificate pem = true := by
  rintro (e | pem) s' ⟨rfl, hfile⟩
  · exact ⟨rfl, by rintro pem ⟨⟩⟩
  show Ensures _ (if !isCertificate pem then _ else _) _ _
  split_ifs with hcertificate
  · exact ⟨rfl, by rintro pem ⟨⟩⟩
  · refine ⟨rfl, ?_⟩
    rintro pem' ⟨⟩
    exact ⟨hfile pem rfl, by simpa using hcertificate⟩

/-- However its calls end, a pass that is abandoned has changed nothing, and what a pass counts as
done the Connection Manager holds: of the tenants only, each holds what it held before or the CA
that the pass has read, root and intermediates together. -/
theorem reconcile_registers (caPath : String) :
    (reconcile replica settings caPath).Ensures (Mcm.Performs sources) s fun s' r =>
      match r with
      | .error _ => s' = s
      | .ok result => ∃ certificate chain keys, sources.file certificate ∧
          isCertificate certificate = true ∧ sources.intermediates chain ∧ sources.keys keys ∧
          result.tenants = (tenants settings keys).length ∧
          Registered certificate (withoutCertificate chain certificate) s (tenants settings keys) s'
            result := by
  refine Async.Program.ensures_bind.mpr ((ensures_readPivotalCa caPath).mono ?_)
  rintro s₁ (e | certificate) ⟨rfl, hfile⟩
  · rfl
  obtain ⟨hfile, hcertificate⟩ := hfile certificate rfl
  rintro (e | chain) s₂ ⟨rfl, hchain⟩
  · rfl
  rintro (e | keys) s₃ ⟨rfl, hkeys⟩
  · rfl
  show Ensures _ ((tenants settings keys).foldlM
    (count replica settings certificate (withoutCertificate chain certificate))
    ⟨(tenants settings keys).length, 0, 0, 0⟩) s₃ _
  refine Ensures.mono (Succeeds.foldlM
    (fun before (s' : Mcm ρ) result => result.tenants = (tenants settings keys).length ∧
      Registered certificate (withoutCertificate chain certificate) s₃ before s' result) ?_ ?_) ?_
  rotate_left 2
  · rintro s' r ⟨result, rfl, htenants, hregistered⟩
    exact ⟨certificate, chain, keys, hfile, hcertificate, hchain chain rfl, hkeys keys rfl,
      htenants, hregistered⟩
  · intro before fspId after hitems s' result ⟨htenants, hregistered⟩
    have hnew : fspId ∉ before := by
      have hnodup := nodup_tenants settings keys
      rw [hitems] at hnodup
      exact fun hmem => (List.nodup_append.mp hnodup).2.2 fspId hmem fspId List.mem_cons_self rfl
    exact (hregistered.count hnew).mono fun _ _ h => ⟨h.1.trans htenants, h.2⟩
  · exact ⟨rfl, rfl, Nat.le_refl _, by simp, fun _ _ => rfl⟩

/-! Passes in which nothing fails. -/

/-- A call that is answered as it should be. -/
def Mcm.Serves (sources : CaSources) (s : Mcm ρ) (op : RegistrationOp ρ) (a : RegistrationAnswer op)
    (s' : Mcm ρ) : Prop := s.Performs sources op a s' ∧ s.Answers op a

variable (replica) in
/-- The set of the registrar names only what is on the list. -/
def Mcm.Knows (s : Mcm ρ) : Prop := ∀ d ∈ s.known replica, s.Lists d

theorem Mcm.Knows.remember (h : s.Knows replica) {dfspId : String} (hid : s.Lists dfspId) :
    (s.remember replica dfspId).Knows replica := by
  intro d hd
  rcases mem_known_remember.mp hd with ⟨-, rfl⟩ | hd
  · exact hid
  · exact h d hd

namespace McmDfspRegistrar

theorem succeeds_existsInMcm (h : s.Knows replica) (dfspId : String) :
    (existsInMcm replica dfspId).Succeeds (Mcm.Serves sources) s fun s' present =>
      s'.dfsps = s.dfsps ∧ s'.ca = s.ca ∧ s'.Knows replica ∧
        (present = true → s'.Lists dfspId) ∧ (present = false → dfspId ∉ s'.ids) := by
  refine Succeeds.answered ?_
  rintro a s₁ ⟨⟨rfl, hdfsps⟩, dfsps, rfl⟩
  refine ⟨dfsps, rfl, ?_⟩
  obtain rfl := hdfsps dfsps rfl
  refine Succeeds.bind (Succeeds.foldlM (fun before s' _ => s'.dfsps = s₁.dfsps ∧ s'.ca = s₁.ca ∧
    s'.Knows replica ∧ ∀ id ∈ before, id ∈ s'.known replica) ?_ ⟨rfl, rfl, h, by simp⟩) ?_
  · rintro before id after hitems s' ⟨⟩ ⟨hsame, hca, hknows, hbefore⟩
    refine Async.Program.succeeds_perform ?_
    rintro ⟨⟩ s₂ ⟨rfl, -⟩
    have hid : id ∈ s₁.ids := by
      rw [Mcm.ids, hitems]
      simp
    refine ⟨hsame, hca, hknows.remember ?_, fun id' hid' => ?_⟩
    · obtain ⟨dfsp, hmem, hdfsp⟩ := Mcm.lists_of_mem_ids hid
      exact ⟨dfsp, hsame ▸ hmem, hdfsp⟩
    · refine Mcm.mem_known_remember.mpr ?_
      rcases List.mem_append.mp hid' with hid' | hid'
      · exact .inr (hbefore id' hid')
      · exact .inl ⟨rfl, List.mem_singleton.mp hid'⟩
  · rintro ⟨⟩ s₂ ⟨hsame, hca, hknows, hall⟩
    refine Async.Program.succeeds_perform ?_
    rintro a s₃ ⟨⟨rfl, rfl⟩, -⟩
    refine ⟨hsame, hca, hknows, fun hpresent => ?_, fun habsent hid => ?_⟩
    · exact hknows dfspId (of_decide_eq_true hpresent)
    · refine of_decide_eq_false habsent (hall dfspId ?_)
      rwa [Mcm.ids, hsame] at hid

theorem succeeds_create (h : s.Knows replica) (settings : McmDfspRegistrar.Settings)
    {dfspId : String} (hnew : dfspId ∉ s.ids) :
    (create replica settings dfspId).Succeeds (Mcm.Serves sources) s fun s' created =>
      created = true ∧ s'.ca = s.ca ∧ s'.Knows replica ∧ s'.Lists dfspId ∧
        ∀ d, s.Lists d → s'.Lists d := by
  refine Succeeds.tryCatch (Succeeds.answered ?_)
  rintro a s₁ ⟨hperforms, hdone | hid⟩
  · obtain rfl := hdone
    obtain ⟨rfl, hrejected⟩ | ⟨dfsp, hdfsp, rfl⟩ := hperforms
    · cases hrejected
    · exact ⟨(), rfl, Async.Program.succeeds_pure
        ⟨rfl, rfl, fun d hd => (h d hd).add dfsp, Mcm.lists_add_self hdfsp,
          fun d hd => hd.add dfsp⟩⟩
  · exact absurd hid hnew

theorem succeeds_ensureRegistered (h : s.Knows replica) {settings : McmDfspRegistrar.Settings}
    (henabled : settings.enabled = true) (dfspId : String) :
    (ensureRegistered replica settings dfspId).Succeeds (Mcm.Serves sources) s fun s' _ =>
      s'.ca = s.ca ∧ s'.Knows replica ∧ s'.Lists dfspId ∧ ∀ d, s.Lists d → s'.Lists d := by
  unfold ensureRegistered
  rw [henabled]
  refine Succeeds.bind (Async.Program.succeeds_perform (R := fun s' known => s' = s ∧
    (known = true → s.Lists dfspId)) ?_) ?_
  · rintro a s₁ ⟨⟨rfl, rfl⟩, -⟩
    exact ⟨rfl, fun hknown => h dfspId (of_decide_eq_true hknown)⟩
  rintro known s₁ ⟨rfl, hlists⟩
  split
  · exact Async.Program.succeeds_pure ⟨rfl, h, hlists ‹_›, fun _ hd => hd⟩
  refine Succeeds.bind (succeeds_existsInMcm h dfspId) ?_
  rintro present s₂ ⟨hdfsps, hca, hknows, hpresent, habsent⟩
  have hgrows : ∀ d, s₁.Lists d → s₂.Lists d := by
    rintro d ⟨dfsp, hmem, hid⟩
    exact ⟨dfsp, hdfsps ▸ hmem, hid⟩
  split
  · exact Async.Program.succeeds_pure ⟨hca, hknows, hpresent ‹_›, hgrows⟩
  rename_i habsent'
  refine Succeeds.bind (succeeds_create hknows settings (habsent (by simpa using habsent'))) ?_
  rintro created s₃ ⟨rfl, hca', hknows', hlists', hgrows'⟩
  refine Succeeds.bind (Async.Program.succeeds_perform
    (R := fun s' _ => s' = s₃.remember replica dfspId) fun _ _ ha => ha.1) ?_
  rintro ⟨⟩ s₄ rfl
  exact Async.Program.succeeds_pure ⟨hca'.trans hca, hknows'.remember hlists', hlists',
    fun d hd => hgrows' d (hgrows d hd)⟩

end McmDfspRegistrar

variable (replica settings) in
/-- A pass finds every one of the DFSPs on the list, or puts it there. -/
structure Mcm.Ready (s : Mcm ρ) (dfspIds : List String) : Prop where
  knows : s.Knows replica
  listed : settings.registrar.any (·.enabled) = true ∨ ∀ d ∈ dfspIds, s.Lists d

theorem succeeds_ensureListed {dfspIds : List String} (h : s.Ready replica settings dfspIds)
    {fspId : String} (hmem : fspId ∈ dfspIds) :
    (ensureRegistered replica settings fspId).Succeeds (Mcm.Serves sources) s fun s' _ =>
      s'.ca = s.ca ∧ s'.Ready replica settings dfspIds ∧ s'.Lists fspId := by
  have hlisted : settings.registrar.any (·.enabled) = false → s.Lists fspId := by
    intro hoff
    rcases h.listed with hon | hall
    · rw [hoff] at hon
      cases hon
    · exact hall fspId hmem
  unfold ensureRegistered
  split
  · rename_i hnone
    exact Async.Program.succeeds_pure ⟨rfl, h, hlisted (by rw [hnone]; rfl)⟩
  rename_i registrar hsome
  by_cases henabled : registrar.enabled = true
  · refine Succeeds.bind
      (McmDfspRegistrar.succeeds_ensureRegistered h.knows henabled fspId) ?_
    rintro outcome s' ⟨hca, hknows, hlists, hgrows⟩
    refine Async.Program.succeeds_pure ⟨hca, ⟨hknows, ?_⟩, hlists⟩
    exact h.listed.imp_right fun hall d hd => hgrows d (hall d hd)
  · have hoff : registrar.enabled = false := by simpa using henabled
    have hprogram : McmDfspRegistrar.ensureRegistered replica registrar fspId =
        pure Outcome.disabled := by
      unfold McmDfspRegistrar.ensureRegistered
      rw [hoff]
      rfl
    rw [hprogram]
    exact Async.Program.succeeds_pure
      ⟨rfl, h, hlisted (by rw [hsome, Option.any_some, hoff])⟩

theorem succeeds_register {dfspIds : List String} (h : s.Ready replica settings dfspIds)
    {certificate : String} {chain : Option String} {fspId : String} (hmem : fspId ∈ dfspIds) :
    (register replica settings certificate chain fspId).Succeeds (Mcm.Serves sources) s
      fun s' registered => s'.Ready replica settings dfspIds ∧
        (isCurrent (some (s.ca fspId)) certificate chain = true →
          registered = false ∧ s'.ca = s.ca) := by
  refine Succeeds.bind (succeeds_ensureListed h hmem) ?_
  rintro ⟨⟩ s₁ ⟨hca, hready, hlists⟩
  refine Succeeds.bind (P := fun s' current => s' = s₁ ∧ current = some (s.ca fspId)) ?_ ?_
  · refine Succeeds.tryCatch (Succeeds.answered ?_)
    rintro a s₂ ⟨⟨rfl, hget⟩, ca, rfl⟩
    obtain rfl := hget ca rfl
    exact ⟨_, rfl, Async.Program.succeeds_pure ⟨rfl, by rw [hca]⟩⟩
  rintro current s₂ ⟨rfl, rfl⟩
  split
  · exact Async.Program.succeeds_pure ⟨hready, fun _ => ⟨rfl, hca⟩⟩
  rename_i hcurrent
  refine Succeeds.answered ?_
  rintro a s₃ ⟨hperforms, hdone | hnot⟩
  · obtain rfl := hdone
    obtain ⟨rfl, hrejected⟩ | ⟨-, rfl⟩ := hperforms
    · cases hrejected
    · exact ⟨(), rfl, Async.Program.succeeds_pure
        ⟨⟨hready.knows, hready.listed⟩, fun h => absurd h hcurrent⟩⟩
  · exact absurd hlists hnot

theorem succeeds_count {dfspIds : List String} (h : s.Ready replica settings dfspIds)
    {certificate : String} {chain : Option String} (result : Result) {fspId : String}
    (hmem : fspId ∈ dfspIds) :
    (count replica settings certificate chain result fspId).Succeeds (Mcm.Serves sources) s
      fun s' result' => s'.Ready replica settings dfspIds ∧ result'.failed = result.failed ∧
        (isCurrent (some (s.ca fspId)) certificate chain = true →
          result'.registered = result.registered ∧ s'.ca = s.ca) := by
  refine Succeeds.tryCatch (Succeeds.bind (succeeds_register h hmem) ?_)
  rintro registered s' ⟨hready, hsame⟩
  cases registered with
  | true =>
    refine Async.Program.succeeds_pure ⟨hready, rfl, fun hcurrent => ?_⟩
    cases (hsame hcurrent).1
  | false =>
    exact Async.Program.succeeds_pure ⟨hready, rfl, fun hcurrent => ⟨rfl, (hsame hcurrent).2⟩⟩

/-- A pass in which nothing fails leaves every tenant with the CA, and touches nobody else's. Where
every tenant has it already, nothing is registered. -/
theorem succeeds_reconcile {file : String} {chain : Option String} {keys : List ParticipantKey}
    (hfile : isCertificate file = true) (h : s.Ready replica settings (tenants settings keys))
    (caPath : String) :
    (reconcile replica settings caPath).Succeeds (Mcm.Serves (.fixed file chain keys)) s
      fun s' result => s'.Ready replica settings (tenants settings keys) ∧ result.failed = 0 ∧
        ((∀ d ∈ tenants settings keys,
          isCurrent (some (s.ca d)) file (withoutCertificate chain file) = true) →
            result.registered = 0 ∧ s'.ca = s.ca) := by
  refine Succeeds.bind (P := fun s' certificate => s' = s ∧ certificate = file) ?_ ?_
  · refine Succeeds.answered ?_
    rintro a s₁ ⟨⟨rfl, hread⟩, pem, rfl⟩
    obtain rfl := hread pem rfl
    refine ⟨_, rfl, ?_⟩
    rw [hfile]
    exact Async.Program.succeeds_pure ⟨rfl, rfl⟩
  rintro certificate s₁ ⟨rfl, rfl⟩
  refine Succeeds.answered ?_
  rintro a s₂ ⟨⟨rfl, hread⟩, chain', rfl⟩
  obtain rfl := hread chain' rfl
  refine ⟨_, rfl, Succeeds.answered ?_⟩
  rintro a s₃ ⟨⟨rfl, hread⟩, keys', rfl⟩
  obtain rfl := hread keys' rfl
  refine ⟨_, rfl, Succeeds.foldlM (fun _ (s' : Mcm ρ) (result : Result) =>
    s'.Ready replica settings (tenants settings keys') ∧ result.failed = 0 ∧
      ((∀ d ∈ tenants settings keys',
        isCurrent (some (s₃.ca d)) certificate (withoutCertificate chain' certificate) = true) →
          result.registered = 0 ∧ s'.ca = s₃.ca)) ?_ ⟨h, rfl, fun _ => ⟨rfl, rfl⟩⟩⟩
  intro before fspId after hitems s' result ⟨hready, hfailed, hsame⟩
  have hmem : fspId ∈ tenants settings keys' := by
    rw [hitems]
    simp
  refine (succeeds_count hready result hmem).mono ?_
  rintro s'' result' ⟨hready', hfailed', hsame'⟩
  refine ⟨hready', hfailed'.trans hfailed, fun hall => ?_⟩
  obtain ⟨hregistered, hca⟩ := hsame hall
  obtain ⟨hregistered', hca'⟩ := hsame' (by rw [hca]; exact hall fspId hmem)
  exact ⟨hregistered'.trans hregistered, hca'.trans hca⟩

/-- Two passes in which nothing fails: after them every tenant holds the CA of this deployment with
its intermediates, nobody else's CA was touched, and the second pass had nothing to register. -/
theorem reconcile_converges {file : String} {chain : Option String} {keys : List ParticipantKey}
    (hfile : isCertificate file = true) (h : s.Ready replica settings (tenants settings keys))
    (caPath : String) :
    (do
      let first ← reconcile replica settings caPath
      let second ← reconcile replica settings caPath
      return (first, second) : RegistrationProgram ρ (Result × Result)).Succeeds
        (Mcm.Serves (.fixed file chain keys)) s fun s' results =>
          results.1.failed = 0 ∧
          results.2 = ⟨(tenants settings keys).length, 0, (tenants settings keys).length, 0⟩ ∧
          (∀ d ∈ tenants settings keys,
            isCurrent (some (s'.ca d)) file (withoutCertificate chain file) = true) ∧
          ∀ d ∉ tenants settings keys, s'.ca d = s.ca d := by
  have hpass : ∀ s₁ : Mcm ρ, s₁.Ready replica settings (tenants settings keys) →
      (reconcile replica settings caPath).Succeeds (Mcm.Serves (.fixed file chain keys)) s₁
        fun s' result => (s'.Ready replica settings (tenants settings keys) ∧ result.failed = 0 ∧
          ((∀ d ∈ tenants settings keys,
            isCurrent (some (s₁.ca d)) file (withoutCertificate chain file) = true) →
              result.registered = 0 ∧ s'.ca = s₁.ca)) ∧
          result.tenants = (tenants settings keys).length ∧
          Registered file (withoutCertificate chain file) s₁ (tenants settings keys) s' result := by
    intro s₁ h₁
    refine Ensures.mono (Ensures.and (succeeds_reconcile hfile h₁ caPath)
      (Ensures.restrict (fun _ _ _ _ ha => ha.1) (reconcile_registers caPath))) ?_
    rintro s' r ⟨⟨result, rfl, hresult⟩, certificate, chain', keys', rfl, -, rfl, rfl, hregistered⟩
    exact ⟨result, rfl, hresult, hregistered⟩
  have hall : ∀ {s₁ s₂ : Mcm ρ} {result : Result}, result.failed = 0 →
      Registered file (withoutCertificate chain file) s₁ (tenants settings keys) s₂ result →
      ∀ d ∈ tenants settings keys,
        isCurrent (some (s₂.ca d)) file (withoutCertificate chain file) = true := by
    intro s₁ s₂ result hfailed hregistered
    refine List.filter_eq_self.mp (List.filter_sublist.eq_of_length_le ?_)
    have htotal := hregistered.total
    have hcorrect := hregistered.correct
    omega
  refine Succeeds.bind (hpass s h) ?_
  rintro first s₁ ⟨⟨hready, hfailed, -⟩, -, hfirst⟩
  refine Succeeds.bind (hpass s₁ hready) ?_
  rintro second s₂ ⟨⟨-, hfailed', hidle⟩, htenants, hsecond⟩
  obtain ⟨hregistered, hca⟩ := hidle (hall hfailed hfirst)
  refine Async.Program.succeeds_pure ⟨hfailed, ?_, hall hfailed' hsecond, fun d hd => ?_⟩
  · have htotal := hsecond.total
    obtain ⟨tenants', registered, alreadyCorrect, failed⟩ := second
    dsimp only at htenants hfailed' hregistered htotal
    subst htenants hfailed' hregistered
    simpa using htotal
  · rw [hca, hfirst.others d hd]

end Alone

/-! A new tenant, and the DFSP that this deployment is. -/

def sampleRegistrations : Mcm Unit := ⟨[⟨some "pivotal", none⟩], fun _ => ⟨none, none⟩, fun _ => []⟩

def sampleRegistrationSettings : Settings := ⟨some "pivotal", some ⟨true, none, none⟩⟩

def sampleSelf : ParticipantKey := ⟨1, "a", .self, none, none, false, none, "off"⟩

theorem sample_reconcile_converges :
    (do
      let first ← reconcile () sampleRegistrationSettings "ca.pem"
      let second ← reconcile () sampleRegistrationSettings "ca.pem"
      return (first, second) : RegistrationProgram Unit (Result × Result)).Succeeds
        (Mcm.Serves (.fixed "BEGIN CERTIFICATE" none [sampleSelf])) sampleRegistrations
        fun s' results => results.2 = ⟨2, 0, 2, 0⟩ ∧
          isCurrent (some (s'.ca "a")) "BEGIN CERTIFICATE" none = true ∧
          s'.ca "b" = ⟨none, none⟩ := by
  have htenants : tenants sampleRegistrationSettings [sampleSelf] = ["a", "pivotal"] := rfl
  have hready : sampleRegistrations.Ready () sampleRegistrationSettings
      (tenants sampleRegistrationSettings [sampleSelf]) :=
    ⟨by rintro d ⟨⟩, .inl rfl⟩
  refine Succeeds.mono (reconcile_converges rfl hready "ca.pem") ?_
  rintro s' results ⟨-, hsecond, hall, hothers⟩
  rw [htenants] at hsecond hall hothers
  exact ⟨hsecond, hall "a" (by decide), hothers "b" (by decide)⟩

end Trust

/-! Any number of replicas that register DFSPs and the CA at once, while others do so too, replicas
restart and calls fail. -/
namespace Trust
open Async (Config System Monitor Event update_eq_some)
open Async.Program (Obeys Keeps Within within_perform)
open HubCallbackCertEnroller (isCertificate)
open McmCaRegistrationScheduler (Settings Result tenants withoutCertificate)
open McmDfspRegistrar (listedId Outcome)

variable {ρ : Type}

inductive RegistrationJob (ρ : Type) where
  | reconcile (replica : ρ) (settings : Settings) (caPath : String)
  | ensureRegistered (replica : ρ) (settings : McmDfspRegistrar.Settings) (dfspId : String)

namespace RegistrationJob

def program : RegistrationJob ρ → RegistrationProgram ρ (Result ⊕ Outcome)
  | reconcile replica settings caPath => do
    let result ← McmCaRegistrationScheduler.reconcile replica settings caPath
    return .inl result
  | ensureRegistered replica settings dfspId => do
    let outcome ← McmDfspRegistrar.ensureRegistered replica settings dfspId
    return .inr outcome

/-- The DFSPs that a job may create. -/
def Creates (sources : CaSources) : RegistrationJob ρ → String → Prop
  | reconcile _ settings _, d => settings.registrar.any (·.enabled) = true ∧
      ∃ keys, sources.keys keys ∧ d ∈ tenants settings keys
  | ensureRegistered _ settings dfspId, d => settings.enabled = true ∧ d = dfspId

/-- The CAs that a job may register. -/
def Registers (sources : CaSources) : RegistrationJob ρ → String → RegisteredCa → Prop
  | reconcile _ settings _, d, ca => ∃ certificate chain keys, sources.file certificate ∧
      isCertificate certificate = true ∧ sources.intermediates chain ∧ sources.keys keys ∧
      d ∈ tenants settings keys ∧ ca = ⟨some certificate, withoutCertificate chain certificate⟩
  | ensureRegistered _ _ _, _, _ => False

end RegistrationJob

namespace CaSources

structure Le (sources sources' : CaSources) : Prop where
  file : ∀ pem, sources.file pem → sources'.file pem
  intermediates : ∀ chain, sources.intermediates chain → sources'.intermediates chain
  keys : ∀ keys, sources.keys keys → sources'.keys keys

/-- What the calls so far have found. -/
def found (t : List (Event (RegistrationOp ρ) RegistrationAnswer)) : CaSources where
  file pem := ⟨.readFile, .ok pem⟩ ∈ t
  intermediates chain := ⟨.readIntermediates, .ok chain⟩ ∈ t
  keys keys := ⟨.findAll, .ok keys⟩ ∈ t

theorem found_mono {t t' : List (Event (RegistrationOp ρ) RegistrationAnswer)} (h : t ⊆ t') :
    (found t).Le (found t') := ⟨fun _ => @h _, fun _ => @h _, fun _ => @h _⟩

end CaSources

theorem RegistrationJob.Creates.mono {sources sources' : CaSources} {job : RegistrationJob ρ}
    {d : String} (h : job.Creates sources d) (hle : sources.Le sources') :
    job.Creates sources' d := by
  cases job with
  | reconcile replica settings caPath =>
    obtain ⟨hon, keys, hkeys, hd⟩ := h
    exact ⟨hon, keys, hle.keys keys hkeys, hd⟩
  | ensureRegistered => exact h

theorem RegistrationJob.Registers.mono {sources sources' : CaSources} {job : RegistrationJob ρ}
    {d : String} {ca : RegisteredCa} (h : job.Registers sources d ca) (hle : sources.Le sources') :
    job.Registers sources' d ca := by
  cases job with
  | reconcile replica settings caPath =>
    obtain ⟨certificate, chain, keys, hfile, hcertificate, hchain, hkeys, hd, hca⟩ := h
    exact ⟨certificate, chain, keys, hle.file _ hfile, hcertificate, hle.intermediates _ hchain,
      hle.keys _ hkeys, hd, hca⟩
  | ensureRegistered => exact h

/-- An answer that shows that the DFSP is on the list. -/
def ShowsListed (d : String) : Event (RegistrationOp ρ) RegistrationAnswer → Prop
  | ⟨.known _ id, a⟩ => a = true ∧ id = d
  | ⟨.listDfsps, a⟩ => ∃ dfsps, a = .ok dfsps ∧ d ∈ dfsps.filterMap listedId
  | ⟨.createDfsp request, a⟩ => a = .done () ∧ request.dfspId = d
  | _ => False

/-- The calls of a job so far. -/
abbrev Registering (ρ : Type) :=
  RegistrationJob ρ × List (Event (RegistrationOp ρ) RegistrationAnswer)

def registering : Monitor (RegistrationOp ρ) RegistrationAnswer (Registering ρ) where
  next r op a := (r.1, r.2 ++ [⟨op, a⟩])
  allows r
    | .addKnown _ d => ∃ e ∈ r.2, ShowsListed d e
    | .createDfsp request => r.1.Creates (.found r.2) request.dfspId
    | .registerCa d ca => r.1.Registers (.found r.2) d ca
    | _ => True

/-- The job after the calls of `t`, and perhaps more. -/
def Since (job : RegistrationJob ρ) (t : List (Event (RegistrationOp ρ) RegistrationAnswer))
    (r : Registering ρ) : Prop := r.1 = job ∧ t ⊆ r.2

variable {job : RegistrationJob ρ} {t : List (Event (RegistrationOp ρ) RegistrationAnswer)}
  {r : Registering ρ} {replica : ρ}

theorem Since.next (h : Since job t r) (op : RegistrationOp ρ) (a : RegistrationAnswer op) :
    Since job t (registering.next r op a) :=
  ⟨h.1, fun _ he => List.mem_append_left _ (h.2 he)⟩

theorem Since.last (h : Since job t r) (op : RegistrationOp ρ) (a : RegistrationAnswer op) :
    Since job (t ++ [⟨op, a⟩]) (registering.next r op a) := by
  refine ⟨h.1, List.append_subset.mpr ⟨(h.next op a).2, ?_⟩⟩
  exact List.subset_append_right ..

theorem Since.mono {t' : List (Event (RegistrationOp ρ) RegistrationAnswer)} (h : Since job t r)
    (ht : t' ⊆ t) : Since job t' r := ⟨h.1, List.Subset.trans ht h.2⟩

namespace McmDfspRegistrar

theorem obeys_existsInMcm (h : Since job t r) (dfspId : String) :
    (existsInMcm replica dfspId).Obeys registering r fun r' res => Since job t r' ∧
      (res = .ok true → ∃ e ∈ r'.2, ShowsListed dfspId e) := by
  refine Obeys.afterPerform trivial fun a => ?_
  have hlist := h.last .listDfsps a
  refine Obeys.afterLift (fun e => ⟨h.next _ _, by rintro ⟨⟩⟩) ?_
  rintro dfsps rfl
  refine Obeys.seq (R := Since job (t ++ [⟨.listDfsps, .ok dfsps⟩])) ?_ ?_ ?_
  · refine Within.keeps
      (P := fun op => ∃ id ∈ dfsps.filterMap listedId, op = RegistrationOp.addKnown replica id)
      (Within.foldlM ?_ _) ?_ _ hlist
    · exact fun _ id hid => within_perform.mpr ⟨id, hid, rfl⟩
    rintro r' op hr' ⟨id, hid, rfl⟩
    refine ⟨⟨⟨.listDfsps, .ok dfsps⟩, hr'.2 ?_, dfsps, rfl, hid⟩, fun a => hr'.next _ a⟩
    exact List.mem_append_right _ List.mem_cons_self
  · rintro ⟨⟩ r' hr'
    refine ⟨trivial, fun present => ⟨(hr'.mono (List.subset_append_left ..)).next _ _, ?_⟩⟩
    rintro ⟨⟩
    exact ⟨_, List.mem_append_right _ List.mem_cons_self, rfl, rfl⟩
  · exact fun e r' hr' => ⟨hr'.mono (List.subset_append_left ..), by rintro ⟨⟩⟩

theorem obeys_create (h : Since job t r) (settings : McmDfspRegistrar.Settings) {dfspId : String}
    (hcreates : job.Creates (.found t) dfspId) :
    (create replica settings dfspId).Obeys registering r fun r' res => Since job t r' ∧
      ∀ created, res = .ok created → ∃ e ∈ r'.2, ShowsListed dfspId e := by
  have hfound := hcreates.mono (CaSources.found_mono h.2)
  rw [← h.1] at hfound
  refine Async.Program.obeys_tryCatch.mpr ⟨hfound, fun a => ?_⟩
  cases a with
  | done u =>
    exact ⟨h.next _ _, fun _ _ => ⟨_, List.mem_append_right _ List.mem_cons_self, rfl, rfl⟩⟩
  | lost e | rejected e =>
    show Obeys registering (existsInMcm replica dfspId >>= _) _ _
    refine Async.Program.obeys_bind.mpr ((obeys_existsInMcm (h.next _ _) dfspId).mono ?_)
    rintro r' (e' | present) ⟨hsince, hpresent⟩
    · exact ⟨hsince, by rintro created ⟨⟩⟩
    cases present with
    | true => exact ⟨hsince, fun _ _ => hpresent rfl⟩
    | false => exact ⟨hsince, by rintro created ⟨⟩⟩

/-- What a call of the registrar ends in, where it is not switched off, is shown by an answer. -/
theorem obeys_ensureRegistered (h : Since job t r) (settings : McmDfspRegistrar.Settings)
    {dfspId : String} (hcreates : settings.enabled = true → job.Creates (.found t) dfspId) :
    (ensureRegistered replica settings dfspId).Obeys registering r fun r' res => Since job t r' ∧
      ∀ outcome, res = .ok outcome → outcome ≠ .disabled → ∃ e ∈ r'.2, ShowsListed dfspId e := by
  unfold ensureRegistered
  by_cases henabled : settings.enabled = true
  swap
  · rw [Bool.not_eq_true] at henabled
    rw [henabled]
    exact ⟨h, by rintro outcome ⟨⟩ hnot; exact absurd rfl hnot⟩
  rw [henabled]
  refine Obeys.afterPerform trivial fun known => ?_
  cases known with
  | true =>
    exact ⟨h.next _ _, fun _ _ _ => ⟨_, List.mem_append_right _ List.mem_cons_self, rfl, rfl⟩⟩
  | false =>
    refine Async.Program.obeys_bind.mpr ((obeys_existsInMcm (h.next _ _) dfspId).mono ?_)
    rintro r₁ (e | present) ⟨hsince, hpresent⟩
    · exact ⟨hsince, by rintro outcome ⟨⟩⟩
    cases present with
    | true => exact ⟨hsince, fun _ _ _ => hpresent rfl⟩
    | false =>
      refine Async.Program.obeys_bind.mpr
        ((obeys_create hsince settings (hcreates henabled)).mono ?_)
      rintro r₂ (e | created) ⟨hsince', hconfirmed⟩
      · exact ⟨hsince', by rintro outcome ⟨⟩⟩
      cases created with
      | false => exact ⟨hsince', fun _ _ _ => hconfirmed false rfl⟩
      | true =>
        obtain ⟨e, he, hshows⟩ := hconfirmed true rfl
        refine ⟨⟨e, he, hshows⟩, fun u => ⟨hsince'.next _ _, fun _ _ _ => ?_⟩⟩
        exact ⟨e, List.mem_append_left _ he, hshows⟩

end McmDfspRegistrar

namespace McmCaRegistrationScheduler

variable {settings : Settings}

theorem obeys_register (h : Since job t r) {certificate fspId : String} {chain : Option String}
    (hcreates : settings.registrar.any (·.enabled) = true → job.Creates (.found t) fspId)
    (hregisters : job.Registers (.found t) fspId ⟨some certificate, chain⟩) :
    (register replica settings certificate chain fspId).Obeys registering r
      fun r' _ => Since job t r' := by
  refine Obeys.seq (R := Since job t) ?_ ?_ fun _ _ hr => hr
  · unfold ensureRegistered
    split
    · exact h
    · rename_i registrar hsome
      refine Obeys.seq (R := Since job t)
        ((McmDfspRegistrar.obeys_ensureRegistered h registrar ?_).mono ?_) ?_ ?_
      · intro hon
        exact hcreates (by rw [hsome]; exact hon)
      · exact fun _ _ hr => hr.1
      · exact fun _ _ hr => hr
      · exact fun _ _ hr => hr
  rintro ⟨⟩ r₁ h₁
  refine Obeys.seq (R := Since job t) ?_ ?_ fun _ _ hr => hr
  · refine Async.Program.obeys_tryCatch.mpr ⟨trivial, fun a => ?_⟩
    cases a with
    | error e => exact h₁.next _ _
    | ok ca => exact h₁.next _ _
  rintro current r₂ h₂
  split
  · exact h₂
  · have hfound := hregisters.mono (CaSources.found_mono h₂.2)
    rw [← h₂.1] at hfound
    refine ⟨hfound, fun a => ?_⟩
    cases a with
    | done u => exact h₂.next _ _
    | lost e | rejected e => exact h₂.next _ _

theorem obeys_reconcile (caPath : String) :
    (reconcile replica settings caPath).Obeys registering
      (.reconcile replica settings caPath, []) fun _ _ => True := by
  generalize hjob : RegistrationJob.reconcile replica settings caPath = job
  refine Obeys.andThen (T := fun r pem => Since job [⟨.readFile, .ok pem⟩] r ∧
    isCertificate pem = true) ?_ ?_ fun _ _ => trivial
  · refine Obeys.afterPerform trivial fun a => Obeys.afterLift (by rintro e pem ⟨⟩) ?_
    rintro pem rfl
    show Obeys _ (if !isCertificate pem then _ else _) _ _
    split_ifs with hcertificate
    · rintro pem' ⟨⟩
    · rintro pem' ⟨⟩
      exact ⟨⟨rfl, List.Subset.refl _⟩, by simpa using hcertificate⟩
  rintro certificate r₁ ⟨h₁, hcertificate⟩
  refine Obeys.afterPerform trivial fun a => Obeys.afterLift (fun _ => trivial) ?_
  rintro chain rfl
  refine Obeys.afterPerform trivial fun a => Obeys.afterLift (fun _ => trivial) ?_
  rintro keys rfl
  have h₃ := (h₁.last .readIntermediates (.ok chain)).last .findAll (.ok keys)
  refine (Keeps.foldlM (fun result fspId hfspId => ?_) _ _ h₃).mono fun _ _ _ => trivial
  refine Keeps.tryCatch (fun r hr => ?_) fun e => Async.Program.keeps_pure _
  refine Obeys.seq (obeys_register hr ?_ ?_) ?_ fun _ _ hr' => hr'
  · intro hon
    rw [← hjob]
    exact ⟨hon, keys, by simp [CaSources.found], hfspId⟩
  · rw [← hjob]
    exact ⟨certificate, chain, keys, by simp [CaSources.found], hcertificate,
      by simp [CaSources.found], by simp [CaSources.found], hfspId, rfl⟩
  · rintro registered r' hr'
    cases registered with
    | true => exact hr'
    | false => exact hr'

end McmCaRegistrationScheduler

theorem obeys_job (job : RegistrationJob ρ) : job.program.Obeys registering (job, []) fun r' res =>
    ∀ replica settings d, job = .ensureRegistered replica settings d →
      ∀ outcome, res = .ok (.inr outcome) → outcome ≠ .disabled → ∃ e ∈ r'.2, ShowsListed d e := by
  cases job with
  | reconcile replica settings caPath =>
    refine Obeys.seq (R := fun _ => True) (McmCaRegistrationScheduler.obeys_reconcile caPath) ?_ ?_
    · rintro result r' - replica' settings' d ⟨⟩
    · rintro e r' - replica' settings' d ⟨⟩
  | ensureRegistered replica settings d =>
    refine Async.Program.obeys_bind.mpr (Obeys.mono (McmDfspRegistrar.obeys_ensureRegistered
      (t := []) ⟨rfl, List.Subset.refl _⟩ settings fun hon => ⟨hon, rfl⟩) ?_)
    rintro r' (e | outcome) ⟨-, hconfirmed⟩
    · rintro replica' settings' d' - outcome ⟨⟩
    · rintro replica' settings' d' ⟨⟩ outcome' ⟨⟩ hon
      exact hconfirmed outcome rfl hon

/-- What others may register. -/
structure OtherRegistrations where
  dfsp : McmDfsp → Prop
  ca : String → RegisteredCa → Prop

section Sound

variable [DecidableEq ρ] (sources : CaSources) (others : OtherRegistrations)
  (kinds : RegistrationJob ρ → Prop)

/-- Others register what is theirs, and a replica that restarts has forgotten what it knew. The
Connection Manager removes no DFSP. -/
structure Mcm.Moves (s s' : Mcm ρ) : Prop where
  known : ∀ replica, s'.known replica ⊆ s.known replica
  lists : ∀ d, s.Lists d → s'.Lists d
  dfsps : ∀ dfsp ∈ s'.dfsps, dfsp ∈ s.dfsps ∨ others.dfsp dfsp
  ca : ∀ d, s'.ca d = s.ca d ∨ others.ca d (s'.ca d)

def registrationSystem : System (RegistrationOp ρ) RegistrationAnswer String (Result ⊕ Outcome)
    { job // kinds job } (Mcm ρ) where
  entry job := job.val.program
  perform := Mcm.Performs sources
  background := Mcm.Moves others

/-- Whatever is registered was registered by others or is what a job of this deployment
registers. -/
structure Mcm.Sound (s : Mcm ρ) : Prop where
  knows : ∀ replica, s.Knows replica
  dfsps : ∀ dfsp ∈ s.dfsps, others.dfsp dfsp ∨ ∃ job d, kinds job ∧ job.Creates sources d ∧
    dfsp.id.or dfsp.dfspId = some d
  ca : ∀ d, others.ca d (s.ca d) ∨ ∃ job, kinds job ∧ job.Registers sources d (s.ca d)

/-- What the calls of a job have found and shown is so. -/
structure Registering.Valid (s : Mcm ρ) (r : Registering ρ) : Prop where
  kind : kinds r.1
  found : (CaSources.found r.2).Le sources
  listed : ∀ d, ∀ e ∈ r.2, ShowsListed d e → s.Lists d

variable {sources others kinds} {s s' : Mcm ρ} {op : RegistrationOp ρ} {a : RegistrationAnswer op}

theorem Mcm.Performs.lists (h : s.Performs sources op a s') {d : String} (hd : s.Lists d) :
    s'.Lists d := by
  cases op with
  | addKnown replica id =>
    rw [show s' = _ from h]
    exact hd
  | createDfsp request =>
    obtain ⟨rfl, -⟩ | ⟨dfsp, -, rfl⟩ := h
    · exact hd
    · cases a with
      | done _ | lost _ => exact hd.add dfsp
      | rejected _ => exact hd
  | registerCa id ca =>
    obtain ⟨rfl, -⟩ | ⟨-, rfl⟩ := h
    · exact hd
    · cases a <;> exact hd
  | _ =>
    obtain ⟨rfl, -⟩ := h
    exact hd

theorem Mcm.Sound.performs (h : s.Sound sources others kinds) {r : Registering ρ}
    (hr : r.Valid sources kinds s) (hallows : registering.allows r op)
    (hp : s.Performs sources op a s') : s'.Sound sources others kinds := by
  cases op with
  | addKnown replica id =>
    obtain ⟨e, he, hshows⟩ := hallows
    rw [show s' = _ from hp]
    refine ⟨fun replica' d hd => ?_, h.dfsps, h.ca⟩
    rcases Mcm.mem_known_remember.mp hd with ⟨-, rfl⟩ | hd
    · exact hr.listed d e he hshows
    · exact h.knows replica' d hd
  | createDfsp request =>
    obtain ⟨rfl, -⟩ | ⟨dfsp, hid, hs'⟩ := hp
    · exact h
    rcases a.applies_cases s (s.add dfsp) with happ | ⟨-, happ⟩
    · rw [hs', happ]
      refine ⟨fun replica d hd => (h.knows replica d hd).add dfsp, fun dfsp' hdfsp' => ?_, h.ca⟩
      rcases List.mem_append.mp hdfsp' with hmem | hmem
      · exact h.dfsps dfsp' hmem
      · obtain rfl := List.mem_singleton.mp hmem
        exact .inr ⟨r.1, request.dfspId, hr.kind, hallows.mono hr.found, hid⟩
    · rw [hs', happ]
      exact h
  | registerCa id ca =>
    obtain ⟨rfl, -⟩ | ⟨-, hs'⟩ := hp
    · exact h
    rcases a.applies_cases s (s.register id ca) with happ | ⟨-, happ⟩
    · rw [hs', happ]
      refine ⟨h.knows, h.dfsps, fun d => ?_⟩
      by_cases hd : d = id
      · subst hd
        rw [show (s.register d ca).ca d = ca from Function.update_self ..]
        exact .inr ⟨r.1, hr.kind, hallows.mono hr.found⟩
      · rw [show (s.register id ca).ca d = s.ca d from Function.update_of_ne hd ..]
        exact h.ca d
    · rw [hs', happ]
      exact h
  | _ =>
    obtain ⟨rfl, -⟩ := hp
    exact h

omit [DecidableEq ρ] in
theorem Registering.Valid.mono {r : Registering ρ} (h : r.Valid sources kinds s)
    (hs : ∀ d, s.Lists d → s'.Lists d) : r.Valid sources kinds s' :=
  ⟨h.kind, h.found, fun d e he hshows => hs d (h.listed d e he hshows)⟩

theorem Mcm.Performs.lists_of_shows (h : s.Performs sources op a s')
    (hknows : ∀ replica, s.Knows replica) {d : String} (hshows : ShowsListed d ⟨op, a⟩) :
    s'.Lists d := by
  cases op with
  | known replica id =>
    obtain ⟨rfl, rfl⟩ := h
    obtain ⟨hknown, rfl⟩ := hshows
    exact hknows replica id (of_decide_eq_true hknown)
  | listDfsps =>
    obtain ⟨rfl, hlist⟩ := h
    obtain ⟨dfsps, rfl, hd⟩ := hshows
    obtain rfl := hlist dfsps rfl
    exact lists_of_mem_ids hd
  | createDfsp request =>
    obtain ⟨rfl, rfl⟩ := hshows
    obtain ⟨-, hrejected⟩ | ⟨dfsp, hid, rfl⟩ := h
    · cases hrejected
    · exact lists_add_self hid
  | _ => exact hshows.elim

theorem Mcm.Performs.found_le (hp : s.Performs sources op a s')
    (h : (CaSources.found t).Le sources) : (CaSources.found (t ++ [⟨op, a⟩])).Le sources := by
  refine ⟨fun pem hpem => ?_, fun chain hchain => ?_, fun keys hkeys => ?_⟩
  · rcases List.mem_append.mp hpem with hmem | hmem
    · exact h.file pem hmem
    · cases List.mem_singleton.mp hmem
      exact hp.2 pem rfl
  · rcases List.mem_append.mp hchain with hmem | hmem
    · exact h.intermediates chain hmem
    · cases List.mem_singleton.mp hmem
      exact hp.2 chain rfl
  · rcases List.mem_append.mp hkeys with hmem | hmem
    · exact h.keys keys hmem
    · cases List.mem_singleton.mp hmem
      exact hp.2 keys rfl

omit [DecidableEq ρ] in
theorem Registering.Valid.start (hkind : kinds job) :
    Registering.Valid sources kinds s (job, []) := by
  refine ⟨hkind, ⟨?_, ?_, ?_⟩, ?_⟩
  · rintro pem ⟨⟩
  · rintro chain ⟨⟩
  · rintro keys ⟨⟩
  · rintro d e ⟨⟩

theorem Registering.Valid.next {r : Registering ρ} (h : r.Valid sources kinds s)
    (hknows : ∀ replica, s.Knows replica) (hp : s.Performs sources op a s') :
    Registering.Valid sources kinds s' (registering.next r op a) := by
  have hmono := h.mono fun d => hp.lists (d := d)
  refine ⟨h.kind, hp.found_le h.found, fun d e he hshows => ?_⟩
  rcases List.mem_append.mp he with hmem | hmem
  · exact hmono.listed d e hmem hshows
  · obtain rfl := List.mem_singleton.mp hmem
    exact hp.lists_of_shows hknows hshows

omit [DecidableEq ρ] in
theorem Mcm.Sound.moves (h : s.Sound sources others kinds) (hmoves : s.Moves others s') :
    s'.Sound sources others kinds := by
  refine ⟨fun replica d hd => ?_, fun dfsp hdfsp => ?_, fun d => ?_⟩
  · exact hmoves.lists d (h.knows replica d (hmoves.known replica hd))
  · rcases hmoves.dfsps dfsp hdfsp with hold | hother
    · exact h.dfsps dfsp hold
    · exact .inl hother
  · rcases hmoves.ca d with hsame | hother
    · rw [hsame]
      exact h.ca d
    · exact .inl hother

variable {ι : Type} [DecidableEq ι]

omit [DecidableEq ρ] in
theorem after_registering (r : Registering ρ)
    (t : List (Event (RegistrationOp ρ) RegistrationAnswer)) :
    registering.after r t = (r.1, r.2 ++ t) := by
  induction t generalizing r with
  | nil => simp
  | cons e t ih =>
    rw [Monitor.after_cons, ih]
    simp [registering]

/-- The CA of a DFSP after a call: as before, or what the call registers. -/
theorem Mcm.Performs.ca_cases (h : s.Performs sources op a s') (d : String) :
    s'.ca d = s.ca d ∨ op = .registerCa d (s'.ca d) := by
  cases hop : op.registers with
  | false => exact .inl (congrFun (h.ca hop) d)
  | true =>
    cases op with
    | registerCa id ca =>
      obtain ⟨rfl, -⟩ | ⟨-, hs'⟩ := h
      · exact .inl rfl
      rcases a.applies_cases s (s.register id ca) with happ | ⟨-, happ⟩
      · rw [hs', happ]
        by_cases hd : d = id
        · subst hd
          rw [show (s.register d ca).ca d = ca from Function.update_self ..]
          exact .inr rfl
        · exact .inl (Function.update_of_ne hd ..)
      · rw [hs', happ]
        exact .inl rfl
    | _ => cases hop

/-- A pass of the run has read the CA, whole, and the tenants that the DFSP is one of. -/
def ReadByPass (sources : CaSources) (others : OtherRegistrations)
    (kinds : RegistrationJob ρ → Prop)
    (c₀ c : Config ι (RegistrationOp ρ) RegistrationAnswer String (Result ⊕ Outcome)
      { job // kinds job } (Mcm ρ)) (d : String) (ca : RegisteredCa) : Prop :=
  ∃ c' i p, (registrationSystem sources others kinds).Reaches System.Any c₀ c' ∧
    (registrationSystem sources others kinds).Reaches System.Any c' c ∧
    c'.process i = some p ∧ p.job.val.Registers (.found p.trace) d ca

/-- Where a CA that is registered comes from. -/
theorem ca_readByPass {s₀ : Mcm ρ}
    {c : Config ι (RegistrationOp ρ) RegistrationAnswer String (Result ⊕ Outcome)
      { job // kinds job } (Mcm ρ)}
    (h : (registrationSystem sources others kinds).Reaches System.Any (.initial s₀) c)
    (d : String) : c.shared.ca d = s₀.ca d ∨ others.ca d (c.shared.ca d) ∨
      ReadByPass sources others kinds (.initial s₀) c d (c.shared.ca d) := by
  refine h.invariant (P := fun c => c.shared.ca d = s₀.ca d ∨ others.ca d (c.shared.ca d) ∨
    ReadByPass sources others kinds (.initial s₀) c d (c.shared.ca d)) (.inl rfl) ?_
  intro c c' l hc hP hl hs
  have hkept : c'.shared.ca d = c.shared.ca d → c'.shared.ca d = s₀.ca d ∨
      others.ca d (c'.shared.ca d) ∨
      ReadByPass sources others kinds (.initial s₀) c' d (c'.shared.ca d) := by
    intro hsame
    rw [hsame]
    refine hP.imp_right (Or.imp_right ?_)
    rintro ⟨c'', i, p, h₀, h₁, hp, hregisters⟩
    exact ⟨c'', i, p, h₀, h₁.tail hl hs, hp, hregisters⟩
  have hstep := hs
  cases hstep with
  | start job hi => exact hkept rfl
  | crash hi => exact hkept rfl
  | background hmoves =>
    rcases hmoves.ca d with hsame | hother
    · exact hkept hsame
    · exact .inr (.inl hother)
  | @call i job t op resume a s' hi hperforms =>
    rcases Mcm.Performs.ca_cases hperforms d with hsame | hregistered
    · exact hkept hsame
    · subst hregistered
      have hallows := (hc.obeys (fun job => obeys_job job.val) hi).1
      rw [Async.Process.record, after_registering] at hallows
      exact .inr (.inr ⟨c, i, _, hc, System.Reaches.refl.tail hl hs, hi, hallows⟩)

/-- However many replicas register at once, and whatever fails: a registrar knows only DFSPs that
are on the list, every DFSP that a call of it ended well for is there, no DFSP was created but for a
job whose registrar is switched on, and every CA that was not there at first, and that others did
not register, is one that a pass had read itself by then, whole, for a tenant. -/
theorem registrations_sound {s₀ : Mcm ρ}
    {c : Config ι (RegistrationOp ρ) RegistrationAnswer String (Result ⊕ Outcome)
      { job // kinds job } (Mcm ρ)}
    (h₀ : s₀.Sound sources others kinds)
    (h : (registrationSystem sources others kinds).Reaches System.Any (.initial s₀) c) :
    c.shared.Sound sources others kinds ∧
      (∀ i replica settings d hkind t outcome,
        c.process i = some ⟨⟨.ensureRegistered replica settings d, hkind⟩, t,
          .done (.ok (.inr outcome))⟩ →
        outcome ≠ .disabled → c.shared.Lists d) ∧
      ∀ d, c.shared.ca d = s₀.ca d ∨ others.ca d (c.shared.ca d) ∨
        ReadByPass sources others kinds (.initial s₀) c d (c.shared.ca d) := by
  have hobeys : ∀ job : { job // kinds job }, ((registrationSystem sources others kinds).entry
      job).Obeys registering (job.val, []) _ := fun job => obeys_job job.val
  have hinvariant := h.records_invariant (fun _ _ _ => True)
    (fun s f => s.Sound sources others kinds ∧
      ∀ i (r : Registering ρ), f i = some r → Registering.Valid sources kinds s r)
    hobeys ⟨h₀, by simp⟩ ?_
  · refine ⟨hinvariant.1, fun i replica settings d hkind t outcome hi hon => ?_, ca_readByPass h⟩
    obtain ⟨e, he, hshows⟩ := h.settled hobeys hi replica settings d rfl outcome rfl hon
    exact (hinvariant.2 i _ (Config.records_eq hi)).listed d e he hshows
  rintro s f l s' f' ⟨hsound, hvalid⟩ - hmove
  cases hmove with
  | start job hi =>
    refine ⟨hsound, fun j r hj => ?_⟩
    rcases update_eq_some.mp hj with ⟨-, hr⟩ | ⟨-, hf⟩
    · exact Option.some.inj hr ▸ Registering.Valid.start job.property
    · exact hvalid j r hf
  | @call _ _ i r op a hi hallows hperforms =>
    refine ⟨hsound.performs (hvalid i r hi) hallows hperforms, fun j r' hj => ?_⟩
    rcases update_eq_some.mp hj with ⟨-, hr⟩ | ⟨-, hf⟩
    · exact Option.some.inj hr ▸ (hvalid i r hi).next hsound.knows hperforms
    · exact (hvalid j r' hf).mono fun d => hperforms.lists
  | crash hi _ =>
    exact ⟨hsound, fun j r hj => hvalid j r (Async.of_update_none hj).2⟩
  | background hmoves =>
    exact ⟨hsound.moves hmoves, fun j r hj => (hvalid j r hj).mono hmoves.lists⟩

end Sound

/-! A replica registers a DFSP that the Connection Manager did not know, and then another replica
registers its CA. -/

def sampleMcmPolicy (s : Mcm Unit) : (op : RegistrationOp Unit) → RegistrationAnswer op × Mcm Unit
  | .readFile => (.ok "BEGIN CERTIFICATE", s)
  | .readIntermediates => (.ok none, s)
  | .findAll => (.ok [sampleSelf], s)
  | .known replica d => (decide (d ∈ s.known replica), s)
  | .addKnown replica d => ((), s.remember replica d)
  | .listDfsps => (.ok s.dfsps, s)
  | .createDfsp request => (.done (), s.add ⟨some request.dfspId, none⟩)
  | .getDfspCa d => (.ok (s.ca d), s)
  | .registerCa d ca => if d ∈ s.ids then (.done (), s.register d ca) else (.rejected "404", s)

theorem performs_sampleMcmPolicy (s : Mcm Unit) (op : RegistrationOp Unit) :
    s.Performs (.fixed "BEGIN CERTIFICATE" none [sampleSelf]) op (sampleMcmPolicy s op).1
      (sampleMcmPolicy s op).2 := by
  cases op with
  | known | addKnown => trivial
  | createDfsp request => exact .inr ⟨⟨some request.dfspId, none⟩, rfl, rfl⟩
  | registerCa d ca =>
    by_cases hd : d ∈ s.ids
    · rw [show sampleMcmPolicy s (.registerCa d ca) = (.done (), s.register d ca) from if_pos hd]
      exact .inr ⟨Mcm.lists_of_mem_ids hd, rfl⟩
    · rw [show sampleMcmPolicy s (.registerCa d ca) = (.rejected "404", s) from if_neg hd]
      exact .inl ⟨rfl, rfl⟩
  | _ =>
    refine ⟨rfl, ?_⟩
    rintro x ⟨⟩
    rfl

def sampleOthers : OtherRegistrations :=
  ⟨(· ∈ sampleRegistrations.dfsps), fun _ ca => ca = ⟨none, none⟩⟩

theorem sample_registrations_sound :
    ∃ c, (registrationSystem (.fixed "BEGIN CERTIFICATE" none [sampleSelf]) sampleOthers
        fun _ : RegistrationJob Unit => True).Reaches (ι := Bool) System.Any
          (.initial sampleRegistrations) c ∧
      c.shared.Sound (.fixed "BEGIN CERTIFICATE" none [sampleSelf]) sampleOthers (fun _ => True) ∧
      c.shared.Lists "a" ∧ "a" ∉ sampleRegistrations.ids ∧
      ReadByPass (.fixed "BEGIN CERTIFICATE" none [sampleSelf]) sampleOthers (fun _ => True)
        (.initial sampleRegistrations) c "a" ⟨some "BEGIN CERTIFICATE", none⟩ := by
  have hstart : (registrationSystem (.fixed "BEGIN CERTIFICATE" none [sampleSelf]) sampleOthers
      fun _ : RegistrationJob Unit => True).Reaches (ι := Bool) System.Any
        (.initial sampleRegistrations) (.initial sampleRegistrations) := .refl
  have hrun := (hstart.solo false ⟨.ensureRegistered () ⟨true, none, none⟩ "a", trivial⟩ rfl
    performs_sampleMcmPolicy trivial
    (Async.Program.soloAll_of_forall (fun _ _ _ _ => trivial) _ _ _)).solo true
    ⟨.reconcile () sampleRegistrationSettings "ca.pem", trivial⟩ rfl performs_sampleMcmPolicy trivial
    (Async.Program.soloAll_of_forall (fun _ _ _ _ => trivial) _ _ _)
  have hstarts : sampleRegistrations.Sound (.fixed "BEGIN CERTIFICATE" none [sampleSelf])
      sampleOthers fun _ => True := ⟨by rintro replica d ⟨⟩, fun _ => .inl, fun _ => .inl rfl⟩
  obtain ⟨hsound, hlists, hca⟩ := registrations_sound hstarts hrun
  obtain hsame | hothers | hread := hca "a"
  · cases hsame
  · cases hothers
  · exact ⟨_, hrun, hsound,
      hlists false () ⟨true, none, none⟩ "a" trivial _ .created rfl (by decide), by decide, hread⟩

end Trust
