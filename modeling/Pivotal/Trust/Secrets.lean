import Pivotal.Async.Pool
import Pivotal.Trust.SecretWriter

/-! What the Secrets hold while any number of replicas run the jobs, calls fail, and others work on
the rest of the cluster. A merge patch writes its keys at once, so the server certificate and its
key always come from one enrolment. -/
namespace Trust
open Async (Config System Written Label update_eq_some)
open Async.Program (Obeys Within within_pure within_perform)
open HubCallbackCertEnroller (isCertificate)
open KubernetesSecretWriter (encode encodeAll)

/-- What the authorities answer, and the key that each key and each text carries: what the library
writes carries what it was given. -/
structure Authorities (K : Type) where
  forge : Forge
  keyOfPublicKey : String → K
  keyOfPrivateKey : String → K
  keyOfPrivate : String → K
  keyOfCsr : String → K
  keyOfCertificate : String → K
  hubCa : String → Prop
  chain : String → String → Prop
  keyOfPrivate_pem : ∀ privateKey,
    keyOfPrivate (forge.privateKeyInfoToPem privateKey) = keyOfPrivateKey privateKey
  keyOfCsr_pem : ∀ request,
    keyOfCsr (forge.certificationRequestToPem request) = keyOfPublicKey request.publicKey

/-- A request made of a pair is for the key that is written beside it. -/
theorem Authorities.keyOfCsr_csrOf {K : Type} (pki : Authorities K) (commonName : String)
    {keys : KeyPair} (h : pki.keyOfPublicKey keys.publicKey = pki.keyOfPrivateKey keys.privateKey) :
    pki.keyOfCsr (HubServerCertEnroller.csrOf pki.forge commonName keys).csrPem =
      pki.keyOfPrivate (HubServerCertEnroller.csrOf pki.forge commonName keys).privateKeyPem :=
  calc pki.keyOfCsr (HubServerCertEnroller.csrOf pki.forge commonName keys).csrPem
      = pki.keyOfPublicKey keys.publicKey := pki.keyOfCsr_pem _
    _ = pki.keyOfPrivateKey keys.privateKey := h
    _ = _ := (pki.keyOfPrivate_pem keys.privateKey).symm

inductive SecretJob where
  | hubCaSync (secretName : String)
  | dfspCaPublish (settings : DfspCaPublishScheduler.Settings)
  | serverCert (settings : HubServerCertEnroller.Settings)

def SecretJob.program (forge : Forge) : SecretJob → ClusterProgram Bool
  | hubCaSync secretName => HubCaSyncScheduler.sync secretName
  | dfspCaPublish settings => DfspCaPublishScheduler.sync settings
  | serverCert settings => HubServerCertEnroller.enrolIfNeeded forge settings

namespace Secret

/-- A merge patch. -/
def merge (secret : Secret) (data : List (String × String)) : Secret :=
  data.foldl (fun secret (key, value) => secret.set key value) secret

theorem get_merge_of_notMem {secret : Secret} {data : List (String × String)} {key : String}
    (h : key ∉ data.map Prod.fst) : (secret.merge data).get key = secret.get key := by
  induction data generalizing secret with
  | nil => rfl
  | cons e data ih =>
    obtain ⟨hkey, hdata⟩ := not_or.mp (List.mem_cons.not.mp h)
    show (merge (secret.set e.1 e.2) data).get key = _
    rw [ih hdata, Js.Map.get_set, if_neg hkey]

theorem get_merge_of_mem {secret : Secret} {data : List (String × String)} {key value : String}
    (hdata : (data.map Prod.fst).Nodup) (h : (key, value) ∈ data) :
    (secret.merge data).get key = some value := by
  induction data generalizing secret with
  | nil => cases h
  | cons e data ih =>
    obtain ⟨hfresh, hrest⟩ := List.nodup_cons.mp hdata
    show (merge (secret.set e.1 e.2) data).get key = _
    rcases List.mem_cons.mp h with rfl | h
    · rw [get_merge_of_notMem hfresh, Js.Map.get_set_self]
    · exact ih hrest h

end Secret

theorem keys_encodeAll (data : Secret) :
    (encodeAll data).map Prod.fst = data.entries.map Prod.fst := by
  simp [encodeAll, Function.comp_def]

theorem get_merge_encodeAll (secret data : Secret) (key : String) :
    (secret.merge (encodeAll data)).get key =
      ((data.get key).map encode).or (secret.get key) := by
  cases hkey : data.get key with
  | none =>
    refine Secret.get_merge_of_notMem ?_
    rw [keys_encodeAll]
    exact Js.Map.notMem_keys_of_get hkey
  | some value =>
    refine Secret.get_merge_of_mem ?_ ?_
    · rw [keys_encodeAll]
      exact data.nodup
    · exact List.mem_map.mpr ⟨(key, value), Js.Map.mem_entries.mpr hkey, rfl⟩

/-- The Secrets, and the CSR of each enrolment that the Connection Manager holds. -/
structure Cluster where
  secrets : String × String → Option Secret
  enrollments : ℤ → Option String

namespace Cluster

def put (s : Cluster) (at' : String × String) (secret : Secret) : Cluster :=
  { s with secrets := Function.update s.secrets at' (some secret) }

def enroll (s : Cluster) (id : ℤ) (csrPem : String) : Cluster :=
  { s with enrollments := Function.update s.enrollments id (some csrPem) }

def respond (s : Cluster) (at' : String × String) : SecretResponse :=
  match s.secrets at' with
  | none => ⟨404, none⟩
  | some secret => ⟨200, some secret⟩

variable {K : Type} (pki : Authorities K)

/-- What a call answers and does. A write that is answered with a 404 changes nothing. -/
def Performs (s : Cluster) : (op : ClusterOp) → ClusterAnswer op → Cluster → Prop
  | .get ns name, a, s' => s' = s ∧ ∀ response, a = .ok response → response = s.respond (ns, name)
  | .patch ns name data, a, s' => s' = s ∨ ∃ secret, s.secrets (ns, name) = some secret ∧
      s' = a.applies s (s.put (ns, name) (secret.merge data))
  | .post ns name data, a, s' => s' = s ∨ s.secrets (ns, name) = none ∧
      s' = a.applies s (s.put (ns, name) (Secret.merge .empty data))
  | .getHubCa, a, s' => s' = s ∧ ∀ pem, a = .ok (some pem) → pki.hubCa pem
  | .readPkiCaChain mount, a, s' => s' = s ∧ ∀ chain, a = .ok (some chain) → pki.chain mount chain
  | .generateKeyPair _, keys, s' => s' = s ∧
      pki.keyOfPublicKey keys.publicKey = pki.keyOfPrivateKey keys.privateKey
  | .createInboundEnrollment _ csrPem, a, s' => s' = s ∧ a.isRejected = true ∨
      ∃ id, s.enrollments id = none ∧ (∀ enrollment, a = .done enrollment → enrollment.id = id) ∧
        s' = a.applies s (s.enroll id csrPem)
  | .signInboundEnrollment _ id, a, s' => s' = s ∧ ∀ enrollment certificate,
      a = .done enrollment → enrollment.certificate = some certificate →
        ∃ csrPem, s.enrollments id = some csrPem ∧
          pki.keyOfCertificate certificate = pki.keyOfCsr csrPem
  | _, _, s' => s' = s

def trustKeys : List String :=
  [HubCaSyncScheduler.bundleKey, DfspCaPublishScheduler.bundleKey, HubServerCertEnroller.certKey,
    HubServerCertEnroller.privateKey]

/-- Others write other keys, create and delete Secrets, and enrol. -/
structure Spares (s s' : Cluster) : Prop where
  secrets : ∀ at' secret', s'.secrets at' = some secret' →
    (∀ key ∈ trustKeys, secret'.get key = none) ∨
      ∃ secret, s.secrets at' = some secret ∧ ∀ key ∈ trustKeys, secret'.get key = secret.get key
  enrollments : ∀ id csrPem, s.enrollments id = some csrPem → s'.enrollments id = some csrPem

end Cluster

section

variable {K : Type} (pki : Authorities K) (kinds : SecretJob → Prop)

/-- Any number of replicas at work on the jobs of a deployment. -/
def clusterSystem : System ClusterOp ClusterAnswer String Bool { job // kinds job } Cluster where
  entry job := job.val.program pki.forge
  perform := Cluster.Performs pki
  background := Cluster.Spares

/-- The texts of a bundle for the gateway. -/
inductive DfspBundle : String → Prop
  | intermediate {settings : DfspCaPublishScheduler.Settings} {intermediate : String} :
      kinds (.dfspCaPublish settings) → pki.chain settings.issuingMount intermediate →
      DfspBundle (intermediate ++ "\n")
  | withRoot {settings : DfspCaPublishScheduler.Settings} {intermediate root : String} :
      kinds (.dfspCaPublish settings) → pki.chain settings.issuingMount intermediate →
      pki.chain settings.rootMount root → DfspBundle (intermediate ++ "\n" ++ root ++ "\n")

/-- What is under the keys of the jobs. -/
structure Secret.Sound (secret : Secret) : Prop where
  hubCa : ∀ value, secret.get HubCaSyncScheduler.bundleKey = some value → ∃ pem, pki.hubCa pem ∧
    isCertificate pem = true ∧ value = encode (HubCaSyncScheduler.terminated pem)
  dfspCa : ∀ value, secret.get DfspCaPublishScheduler.bundleKey = some value →
    ∃ bundle, DfspBundle pki kinds bundle ∧ value = encode bundle
  pair : (secret.get HubServerCertEnroller.certKey = none ∧
      secret.get HubServerCertEnroller.privateKey = none) ∨
    ∃ certificate privateKeyPem,
      secret.get HubServerCertEnroller.certKey = some (encode certificate) ∧
      secret.get HubServerCertEnroller.privateKey = some (encode privateKeyPem) ∧
      pki.keyOfCertificate certificate = pki.keyOfPrivate privateKeyPem

variable {pki kinds}

theorem Secret.Sound.congr {secret secret' : Secret} (h : secret.Sound pki kinds)
    (heq : ∀ key ∈ Cluster.trustKeys, secret'.get key = secret.get key) :
    secret'.Sound pki kinds := by
  simp only [Cluster.trustKeys, List.forall_mem_cons, List.not_mem_nil, false_implies,
    implies_true, and_true] at heq
  obtain ⟨hhub, hdfsp, hcert, hkey⟩ := heq
  refine ⟨?_, ?_, ?_⟩
  · rw [hhub]
    exact h.hubCa
  · rw [hdfsp]
    exact h.dfspCa
  · rw [hcert, hkey]
    exact h.pair

theorem Secret.sound_of_none {secret : Secret}
    (h : ∀ key ∈ Cluster.trustKeys, secret.get key = none) : secret.Sound pki kinds := by
  simp only [Cluster.trustKeys, List.forall_mem_cons, List.not_mem_nil, false_implies,
    implies_true, and_true] at h
  obtain ⟨hhub, hdfsp, hcert, hkey⟩ := h
  refine ⟨?_, ?_, .inl ⟨hcert, hkey⟩⟩
  · simp [hhub]
  · simp [hdfsp]

theorem Secret.sound_empty : Secret.Sound pki kinds Js.Map.empty :=
  sound_of_none fun key _ => Js.Map.get_empty key

end

/-- What a tick has learned so far. -/
inductive SecretStage where
  | idle
  | hubCa (pem : String)
  | publishing (settings : DfspCaPublishScheduler.Settings)
  | intermediate (settings : DfspCaPublishScheduler.Settings) (pem : String)
  | withRoot (settings : DfspCaPublishScheduler.Settings) (pem root : String)
  | enrolling (commonName : String)
  | generated (csr : Csr)
  | submitted (csr : Csr) (id : ℤ)
  | signed (csr : Csr) (certificate : String)

namespace SecretStage

def initial : SecretJob → SecretStage
  | .hubCaSync _ => idle
  | .dfspCaPublish settings => publishing settings
  | .serverCert settings => enrolling settings.commonName

/-- What may be written from here. -/
def data : SecretStage → Option Secret
  | hubCa pem => if isCertificate pem then
      some (Js.Map.empty.set HubCaSyncScheduler.bundleKey (HubCaSyncScheduler.terminated pem))
    else none
  | intermediate _ pem => some (Js.Map.empty.set DfspCaPublishScheduler.bundleKey (pem ++ "\n"))
  | withRoot _ pem root =>
    some (Js.Map.empty.set DfspCaPublishScheduler.bundleKey (pem ++ "\n" ++ root ++ "\n"))
  | signed csr certificate => some ((Js.Map.empty.set HubServerCertEnroller.certKey certificate).set
      HubServerCertEnroller.privateKey csr.privateKeyPem)
  | _ => none

def next (forge : Forge) (stage : SecretStage) : (op : ClusterOp) → ClusterAnswer op → SecretStage
  | .getHubCa, .ok (some pem) => hubCa pem
  | .readPkiCaChain _, .ok (some chain) => match stage with
    | publishing settings => intermediate settings chain
    | intermediate settings pem => withRoot settings pem chain
    | _ => stage
  | .generateKeyPair _, keys => match stage with
    | enrolling commonName => generated (HubServerCertEnroller.csrOf forge commonName keys)
    | _ => stage
  | .createInboundEnrollment _ _, .done enrollment => match stage with
    | generated csr => submitted csr enrollment.id
    | _ => stage
  | .signInboundEnrollment _ _, .done enrollment => match stage, enrollment.certificate with
    | submitted csr _, some certificate => signed csr certificate
    | _, _ => stage
  | _, _ => stage

theorem next_signed {forge : Forge} {csr : Csr} {id : ℤ} {dfspId : String}
    {enrollment : InboundEnrollment} :
    (submitted csr id).next forge (.signInboundEnrollment dfspId id) (.done enrollment) =
      match enrollment.certificate with
      | some certificate => signed csr certificate
      | none => submitted csr id := by
  simp only [next]
  cases enrollment.certificate <;> rfl

def Allows (stage : SecretStage) : ClusterOp → Prop
  | .patch _ _ data => ∃ secret, stage.data = some secret ∧ data = encodeAll secret
  | .post _ _ data => ∃ secret, stage.data = some secret ∧ data = encodeAll secret
  | .readPkiCaChain mount =>
    ∃ settings, stage = publishing settings ∧ mount = settings.issuingMount ∨
      ∃ pem, stage = intermediate settings pem ∧ mount = settings.rootMount
  | .createInboundEnrollment _ csrPem => ∃ csr, stage = generated csr ∧ csr.csrPem = csrPem
  | .signInboundEnrollment _ id => ∃ csr, stage = submitted csr id
  | _ => True

end SecretStage

def secretMonitor (forge : Forge) : Async.Monitor ClusterOp ClusterAnswer SecretStage where
  next := SecretStage.next forge
  allows := SecretStage.Allows

/-! What the programs do, whatever they are answered. -/

section Obeys

/-- A call that neither writes nor asks an authority. -/
def ClusterOp.isQuiet : ClusterOp → Bool
  | .client | .setClient | .podNamespace | .setPodNamespace _ => true
  | .readFile _ | .get _ _ | .now => true
  | _ => false

def ClusterOp.written : ClusterOp → Option (List (String × String))
  | .patch _ _ data => some data
  | .post _ _ data => some data
  | _ => none

namespace KubernetesSecretWriter

theorem within_connect : connect.Within fun op => op.isQuiet = true := by
  refine (within_perform.mpr (by rfl)).bind fun client => ?_
  split
  · exact Within.answered (by rfl) fun _ =>
      Within.answered (by rfl) fun _ => within_perform.mpr (by rfl)
  · exact within_pure _

theorem within_readNamespace : readNamespace.Within fun op => op.isQuiet = true := by
  refine (within_perform.mpr (by rfl)).bind fun ns => ?_
  split
  · exact within_pure _
  · exact Within.answered (by rfl) fun file =>
      (within_perform.mpr (by rfl)).bind fun _ => within_pure _

theorem within_resolveNamespace (override : Option String) :
    (resolveNamespace override).Within fun op => op.isQuiet = true := by
  cases override with
  | none => exact within_readNamespace
  | some ns =>
    dsimp only [resolveNamespace]
    generalize (Js.trim ns).length = n
    split
    · exact within_pure _
    · exact within_readNamespace

theorem within_read (name key : String) (target : Option String) :
    (read name key target).Within fun op => op.isQuiet = true := by
  refine within_connect.bind fun _ => (within_resolveNamespace target).bind fun ns => ?_
  refine Within.answered (by rfl) fun response => ?_
  split
  · exact within_pure _
  · exact within_pure _

theorem within_putIfChanged (name : String) (data : Secret) (target : Option String) :
    (putIfChanged name data target).Within fun op =>
      op.isQuiet = true ∨ op.written = some (encodeAll data) := by
  refine (within_connect.mono fun _ => .inl).bind fun _ =>
    ((within_resolveNamespace target).mono fun _ => .inl).bind fun ns => ?_
  refine Within.answered (.inl (by rfl)) fun existing => ?_
  split
  · dsimp only
    split
    · exact within_pure _
    · exact Within.answered (.inr (by rfl)) fun _ => within_pure _
  · exact Within.answered (.inr (by rfl)) fun _ => within_pure _

end KubernetesSecretWriter

variable {forge : Forge} {stage : SecretStage}

/-- A quiet call may always be made, and nothing is learned from it. -/
theorem SecretStage.quiet {op : ClusterOp} (h : op.isQuiet = true) :
    stage.Allows op ∧ ∀ a, stage.next forge op a = stage := by
  cases op with
  | patch | post | getHubCa | readPkiCaChain | generateKeyPair | createInboundEnrollment
  | signInboundEnrollment => cases h
  | _ => exact ⟨trivial, fun _ => rfl⟩

/-- From a stage at which `data` may be written, the writer stays there. -/
theorem obeys_putIfChanged {data : Secret} (hdata : stage.data = some data) (name : String)
    (target : Option String) :
    (KubernetesSecretWriter.putIfChanged name data target).Obeys (secretMonitor forge) stage
      fun _ _ => True := by
  have hkeeps := (KubernetesSecretWriter.within_putIfChanged name data target).keeps
    (M := secretMonitor forge) (R := fun s => s = stage) (by
      rintro s op rfl (hquiet | hwritten)
      · exact SecretStage.quiet hquiet
      · cases op with
        | patch ns name data' | post ns name data' =>
          exact ⟨⟨data, hdata, Option.some.inj hwritten⟩, fun _ => rfl⟩
        | _ => cases hwritten)
  exact (hkeeps stage rfl).mono fun _ _ _ => trivial

theorem obeys_hubCaSync (secretName : String) :
    (HubCaSyncScheduler.sync secretName).Obeys (secretMonitor forge) .idle fun _ _ => True := by
  unfold HubCaSyncScheduler.sync
  refine Obeys.afterPerform trivial fun a => Obeys.afterLift (fun _ => trivial) fun pem ha => ?_
  split
  · trivial
  · rename_i text hpem
    obtain ⟨rfl, hcertificate⟩ := Option.filter_eq_some_iff.mp hpem
    subst ha
    exact obeys_putIfChanged (show (SecretStage.hubCa text).data = some _ from if_pos hcertificate)
      secretName none

/-- The bundle is what may be written when it has been read. -/
theorem obeys_readBundle (settings : DfspCaPublishScheduler.Settings) :
    (DfspCaPublishScheduler.readBundle settings).Obeys (secretMonitor forge) (.publishing settings)
      fun stage r => ∀ bundle, r = .ok (some bundle) →
        stage.data = some (Js.Map.empty.set DfspCaPublishScheduler.bundleKey bundle) := by
  unfold DfspCaPublishScheduler.readBundle
  refine Obeys.afterPerform ⟨settings, .inl ⟨rfl, rfl⟩⟩ fun a =>
    Obeys.afterLift (by rintro e bundle ⟨⟩) fun chain ha => ?_
  subst ha
  cases chain with
  | none => rintro bundle ⟨⟩
  | some intermediate =>
    dsimp only
    split_ifs
    · rintro bundle ⟨⟩
      rfl
    · refine Obeys.afterPerform ⟨settings, .inr ⟨intermediate, rfl, rfl⟩⟩ fun a =>
        Obeys.afterLift (by rintro e bundle ⟨⟩) fun chain ha => ?_
      subst ha
      cases chain with
      | none =>
        rintro bundle ⟨⟩
        rfl
      | some root =>
        rintro bundle ⟨⟩
        rfl

theorem obeys_dfspCaPublish (settings : DfspCaPublishScheduler.Settings) :
    (DfspCaPublishScheduler.sync settings).Obeys (secretMonitor forge) (.publishing settings)
      fun _ _ => True := by
  unfold DfspCaPublishScheduler.sync
  refine Obeys.andThen (T := fun stage bundle => ∀ text, bundle = some text →
      stage.data = some (Js.Map.empty.set DfspCaPublishScheduler.bundleKey text))
    ((obeys_readBundle settings).mono ?_) ?_ fun _ _ => trivial
  · rintro stage r h bundle rfl text rfl
    exact h text rfl
  · intro bundle stage h
    cases bundle with
    | none => trivial
    | some text =>
      exact obeys_putIfChanged (h text rfl) settings.secretName (some settings.gatewayNamespace)

theorem done_of_toExcept {ε α : Type} {a : Written ε α} {b : α} (h : a.toExcept = .ok b) :
    a = .done b := by
  cases a with
  | done a => exact congrArg Written.done (Except.ok.inj h)
  | lost e => cases h
  | rejected e => cases h

theorem obeys_enrol (settings : HubServerCertEnroller.Settings) :
    (HubServerCertEnroller.enrol forge settings).Obeys (secretMonitor forge)
      (.enrolling settings.commonName) fun _ _ => True := by
  unfold HubServerCertEnroller.enrol
  refine Obeys.afterPerform trivial fun keys => ?_
  set csr := HubServerCertEnroller.csrOf forge settings.commonName keys
  refine Obeys.afterPerform ⟨csr, rfl, rfl⟩ fun a =>
    Obeys.afterLift (fun _ => trivial) fun submitted ha => ?_
  obtain rfl := done_of_toExcept ha
  refine Obeys.afterPerform ⟨csr, rfl⟩ fun a =>
    Obeys.afterLift (fun _ => trivial) fun signed ha => ?_
  obtain rfl := done_of_toExcept ha
  split
  · rename_i certificate hsigned
    obtain ⟨hcertificate, -⟩ := Option.filter_eq_some_iff.mp hsigned
    have hstage : SecretStage.next forge (.submitted csr submitted.id)
        (.signInboundEnrollment settings.dfspId submitted.id) (.done signed) =
          .signed csr certificate := by
      rw [SecretStage.next_signed, hcertificate]
    refine Obeys.seq (R := fun _ => True) (obeys_putIfChanged ?_ _ _) ?_ ?_
    · exact congrArg SecretStage.data hstage
    · exact fun _ _ _ => trivial
    · exact fun _ _ _ => trivial
  · trivial

theorem obeys_program (job : SecretJob) :
    (job.program forge).Obeys (secretMonitor forge) (.initial job) fun _ _ => True := by
  cases job with
  | hubCaSync secretName => exact obeys_hubCaSync secretName
  | dfspCaPublish settings => exact obeys_dfspCaPublish settings
  | serverCert settings =>
    have hquiet : (do
        let existing ← KubernetesSecretWriter.read settings.secretName
          HubServerCertEnroller.certKey none
        HubServerCertEnroller.daysUntilExpiry forge existing : ClusterProgram (Option ℤ)).Within
          fun op => op.isQuiet = true := by
      refine (KubernetesSecretWriter.within_read _ _ _).bind fun existing => ?_
      unfold HubServerCertEnroller.daysUntilExpiry
      split
      · exact within_pure _
      · exact (within_perform.mpr (by rfl)).bind fun _ => within_pure _
    have hread := hquiet.keeps (M := secretMonitor forge) (R := fun s => s = SecretStage.enrolling settings.commonName) (by
      rintro s op rfl hop
      exact SecretStage.quiet hop) _ rfl
    have hcut : HubServerCertEnroller.enrolIfNeeded forge settings = (do
        let existing ← KubernetesSecretWriter.read settings.secretName
          HubServerCertEnroller.certKey none
        HubServerCertEnroller.daysUntilExpiry forge existing) >>= fun daysLeft =>
          if daysLeft.any fun daysLeft => settings.renewBeforeDays < daysLeft then return false
          else do
            HubServerCertEnroller.enrol forge settings
            return true := (Async.Program.bind_bind _ _ _).symm
    show (HubServerCertEnroller.enrolIfNeeded forge settings).Obeys _ _ _
    rw [hcut]
    refine Obeys.seq hread ?_ fun _ _ _ => trivial
    rintro daysLeft stage rfl
    split
    · trivial
    · exact Obeys.seq (R := fun _ => True) (obeys_enrol settings) (fun _ _ _ => trivial)
        fun _ _ _ => trivial

end Obeys

/-! What every move keeps. -/

section Keeps

variable {K : Type} {pki : Authorities K} {kinds : SecretJob → Prop}

variable (pki kinds) in
/-- What has been learned is so. -/
def SecretStage.Valid (s : Cluster) : SecretStage → Prop
  | idle | enrolling _ => True
  | hubCa pem => pki.hubCa pem
  | publishing settings => kinds (.dfspCaPublish settings)
  | intermediate settings pem =>
    kinds (.dfspCaPublish settings) ∧ pki.chain settings.issuingMount pem
  | withRoot settings pem root => kinds (.dfspCaPublish settings) ∧
      pki.chain settings.issuingMount pem ∧ pki.chain settings.rootMount root
  | generated csr => pki.keyOfCsr csr.csrPem = pki.keyOfPrivate csr.privateKeyPem
  | submitted csr id => pki.keyOfCsr csr.csrPem = pki.keyOfPrivate csr.privateKeyPem ∧
      s.enrollments id = some csr.csrPem
  | signed csr certificate => pki.keyOfCertificate certificate = pki.keyOfPrivate csr.privateKeyPem

variable {s s' : Cluster} {stage : SecretStage} {op : ClusterOp} {a : ClusterAnswer op}

theorem SecretStage.valid_initial (job : { job // kinds job }) :
    (SecretStage.initial job.val).Valid pki kinds s := by
  obtain ⟨job, hjob⟩ := job
  cases job with
  | dfspCaPublish settings => exact hjob
  | _ => trivial

theorem SecretStage.Valid.mono (h : stage.Valid pki kinds s)
    (hs : ∀ id csrPem, s.enrollments id = some csrPem → s'.enrollments id = some csrPem) :
    stage.Valid pki kinds s' := by
  cases stage with
  | submitted csr id => exact ⟨h.1, hs _ _ h.2⟩
  | _ => exact h

theorem Secret.Sound.merge {secret data : Secret} (h : secret.Sound pki kinds)
    (hstage : stage.Valid pki kinds s) (hdata : stage.data = some data) :
    Secret.Sound pki kinds (secret.merge (encodeAll data)) := by
  cases stage with
  | hubCa pem =>
    dsimp only [SecretStage.data] at hdata
    split_ifs at hdata with hpem
    cases hdata
    refine ⟨?_, ?_, ?_⟩
    · intro value hvalue
      rw [get_merge_encodeAll, Js.Map.get_set_self] at hvalue
      exact ⟨pem, hstage, hpem, (Option.some.inj hvalue).symm⟩
    · rw [get_merge_encodeAll, Js.Map.get_set]
      exact h.dfspCa
    · rw [get_merge_encodeAll, get_merge_encodeAll, Js.Map.get_set, Js.Map.get_set]
      exact h.pair
  | intermediate settings pem =>
    cases hdata
    refine ⟨?_, ?_, ?_⟩
    · rw [get_merge_encodeAll, Js.Map.get_set]
      exact h.hubCa
    · intro value hvalue
      rw [get_merge_encodeAll, Js.Map.get_set_self] at hvalue
      exact ⟨_, .intermediate hstage.1 hstage.2, (Option.some.inj hvalue).symm⟩
    · rw [get_merge_encodeAll, get_merge_encodeAll, Js.Map.get_set, Js.Map.get_set]
      exact h.pair
  | withRoot settings pem root =>
    cases hdata
    refine ⟨?_, ?_, ?_⟩
    · rw [get_merge_encodeAll, Js.Map.get_set]
      exact h.hubCa
    · intro value hvalue
      rw [get_merge_encodeAll, Js.Map.get_set_self] at hvalue
      exact ⟨_, .withRoot hstage.1 hstage.2.1 hstage.2.2, (Option.some.inj hvalue).symm⟩
    · rw [get_merge_encodeAll, get_merge_encodeAll, Js.Map.get_set, Js.Map.get_set]
      exact h.pair
  | signed csr certificate =>
    cases hdata
    refine ⟨?_, ?_, .inr ⟨certificate, csr.privateKeyPem, ?_, ?_, hstage⟩⟩
    · rw [get_merge_encodeAll, Js.Map.get_set, Js.Map.get_set]
      exact h.hubCa
    · rw [get_merge_encodeAll, Js.Map.get_set, Js.Map.get_set]
      exact h.dfspCa
    · rw [get_merge_encodeAll, Js.Map.get_set, Js.Map.get_set]
      rfl
    · rw [get_merge_encodeAll, Js.Map.get_set_self]
      rfl
  | _ => cases hdata

omit pki in
theorem Cluster.enrollments_applies_put (w : Written String Unit) (at' : String × String)
    (secret : Secret) : (w.applies s (s.put at' secret)).enrollments = s.enrollments := by
  cases w <;> rfl

theorem Cluster.Performs.enrollments (h : s.Performs pki op a s') :
    ∀ id csrPem, s.enrollments id = some csrPem → s'.enrollments id = some csrPem := by
  intro id csrPem hid
  cases op with
  | patch ns name data =>
    rcases h with rfl | ⟨secret, -, rfl⟩
    · exact hid
    · rwa [Cluster.enrollments_applies_put]
  | post ns name data =>
    rcases h with rfl | ⟨-, rfl⟩
    · exact hid
    · rwa [Cluster.enrollments_applies_put]
  | createInboundEnrollment dfspId csrPem' =>
    obtain ⟨rfl, -⟩ | ⟨id', hfresh, -, rfl⟩ := h
    · exact hid
    rcases a.applies_cases s (s.enroll id' csrPem') with heq | ⟨-, heq⟩
    · rw [heq]
      show Function.update s.enrollments id' (some csrPem') id = some csrPem
      rw [Function.update_of_ne, hid]
      rintro rfl
      rw [hfresh] at hid
      cases hid
    · rwa [heq]
  | getHubCa | get | readPkiCaChain | generateKeyPair | signInboundEnrollment =>
    obtain ⟨rfl, -⟩ := h
    exact hid
  | _ =>
    obtain rfl := h
    exact hid

theorem Cluster.Performs.sound (h : s.Performs pki op a s') (hstage : stage.Valid pki kinds s)
    (hallows : stage.Allows op)
    (hsound : ∀ at' secret, s.secrets at' = some secret → Secret.Sound pki kinds secret) :
    ∀ at' secret, s'.secrets at' = some secret → Secret.Sound pki kinds secret := by
  have hput : ∀ {at'' : String × String} {old data : Secret} {w : Written String Unit},
      old.Sound pki kinds → stage.data = some data →
      ∀ at' secret,
        (w.applies s (s.put at'' (old.merge (encodeAll data)))).secrets at' = some secret →
          Secret.Sound pki kinds secret := by
    intro at'' old data w hold hdata at' secret hsecret
    rcases w.applies_cases s (s.put at'' (old.merge (encodeAll data))) with heq | ⟨-, heq⟩
    · rw [heq] at hsecret
      rcases update_eq_some.mp hsecret with ⟨-, hnew⟩ | ⟨-, hkept⟩
      · obtain rfl := Option.some.inj hnew
        exact hold.merge hstage hdata
      · exact hsound at' secret hkept
    · rw [heq] at hsecret
      exact hsound at' secret hsecret
  cases op with
  | patch ns name data =>
    obtain ⟨data, hdata, rfl⟩ := hallows
    rcases h with rfl | ⟨secret, hsecret, rfl⟩
    · exact hsound
    · exact hput (hsound _ _ hsecret) hdata
  | post ns name data =>
    obtain ⟨data, hdata, rfl⟩ := hallows
    rcases h with rfl | ⟨-, rfl⟩
    · exact hsound
    · exact hput Secret.sound_empty hdata
  | createInboundEnrollment dfspId csrPem =>
    obtain ⟨rfl, -⟩ | ⟨id, -, -, rfl⟩ := h
    · exact hsound
    rcases a.applies_cases s (s.enroll id csrPem) with heq | ⟨-, heq⟩
    · rw [heq]
      exact hsound
    · rwa [heq]
  | getHubCa | get | readPkiCaChain | generateKeyPair | signInboundEnrollment =>
    obtain ⟨rfl, -⟩ := h
    exact hsound
  | _ =>
    obtain rfl := h
    exact hsound

theorem SecretStage.Valid.next (h : stage.Valid pki kinds s) (hallows : stage.Allows op)
    (hp : s.Performs pki op a s') : (stage.next pki.forge op a).Valid pki kinds s' := by
  have hkept : stage.Valid pki kinds s' := h.mono hp.enrollments
  cases op with
  | getHubCa =>
    obtain ⟨-, hpem⟩ := hp
    rcases a with e | _ | pem
    · exact hkept
    · exact hkept
    · exact hpem pem rfl
  | readPkiCaChain mount =>
    obtain ⟨-, hchain⟩ := hp
    rcases a with e | _ | chain
    · exact hkept
    · exact hkept
    · obtain ⟨settings, ⟨rfl, rfl⟩ | ⟨pem, rfl, rfl⟩⟩ := hallows
      · exact ⟨h, hchain chain rfl⟩
      · exact ⟨h.1, h.2, hchain chain rfl⟩
  | generateKeyPair bits =>
    cases stage with
    | enrolling commonName => exact pki.keyOfCsr_csrOf commonName hp.2
    | _ => exact hkept
  | createInboundEnrollment dfspId csrPem =>
    obtain ⟨csr, rfl, rfl⟩ := hallows
    cases a with
    | done enrollment =>
      obtain ⟨-, hrejected⟩ | ⟨id, -, hid, rfl⟩ := hp
      · cases hrejected
      refine ⟨h, ?_⟩
      rw [hid enrollment rfl]
      exact Function.update_self ..
    | lost e => exact hkept
    | rejected e => exact hkept
  | signInboundEnrollment dfspId id =>
    obtain ⟨rfl, hsigned⟩ := hp
    obtain ⟨csr, rfl⟩ := hallows
    cases a with
    | done enrollment =>
      cases hcertificate : enrollment.certificate with
      | none =>
        rw [SecretStage.next_signed, hcertificate]
        exact h
      | some certificate =>
        rw [SecretStage.next_signed, hcertificate]
        obtain ⟨csrPem, hcsr, hkey⟩ := hsigned enrollment certificate rfl hcertificate
        obtain rfl := Option.some.inj (h.2.symm.trans hcsr)
        exact hkey.trans h.1
    | lost e => exact hkept
    | rejected e => exact hkept
  | _ => exact hkept

variable {ι : Type} [DecidableEq ι]

end Keeps

/-! An enrolment in an empty cluster. -/

/-- A library that writes a key as it is. -/
def sampleForge : Forge := ⟨id, CertificationRequest.publicKey, fun _ => none⟩

def samplePki : Authorities String where
  forge := sampleForge
  keyOfPublicKey := id
  keyOfPrivateKey := id
  keyOfPrivate := id
  keyOfCsr := id
  keyOfCertificate certificate := String.ofList (certificate.toList.drop 17)
  hubCa _ := True
  chain _ _ := True
  keyOfPrivate_pem _ := rfl
  keyOfCsr_pem _ := rfl

def sampleCluster : Cluster := ⟨fun _ => none, fun _ => none⟩

def sampleClusterPolicy (s : Cluster) : (op : ClusterOp) → ClusterAnswer op × Cluster
  | .client => (true, s)
  | .setClient => ((), s)
  | .podNamespace => (some "pivotal", s)
  | .setPodNamespace _ => ((), s)
  | .readFile _ => (.error "ENOENT", s)
  | .get ns name => (.ok (s.respond (ns, name)), s)
  | .patch _ _ _ => (.rejected "403", s)
  | .post ns name data => match s.secrets (ns, name) with
    | none => (.done (), s.put (ns, name) (Secret.merge .empty data))
    | some _ => (.rejected "409", s)
  | .getHubCa => (.ok none, s)
  | .readPkiCaChain _ => (.ok none, s)
  | .generateKeyPair _ => (⟨"key", "key"⟩, s)
  | .createInboundEnrollment _ csrPem => match s.enrollments 1 with
    | none => (.done ⟨1, "CSR_LOADED", none⟩, s.enroll 1 csrPem)
    | some _ => (.rejected "500", s)
  | .signInboundEnrollment _ id => match s.enrollments id with
    | some csrPem => (.done ⟨id, "CERT_SIGNED", some ("BEGIN CERTIFICATE" ++ csrPem)⟩, s)
    | none => (.rejected "404", s)
  | .now => (0, s)

theorem performs_sampleClusterPolicy (s : Cluster) (op : ClusterOp) :
    s.Performs samplePki op (sampleClusterPolicy s op).1 (sampleClusterPolicy s op).2 := by
  cases op with
  | get ns name =>
    refine ⟨rfl, ?_⟩
    rintro response ⟨⟩
    rfl
  | patch => exact .inl rfl
  | post ns name data =>
    simp only [sampleClusterPolicy]
    split
    · rename_i hnone
      exact .inr ⟨hnone, rfl⟩
    · exact .inl rfl
  | getHubCa => exact ⟨rfl, fun _ _ => trivial⟩
  | readPkiCaChain => exact ⟨rfl, fun _ _ => trivial⟩
  | generateKeyPair => exact ⟨rfl, rfl⟩
  | createInboundEnrollment dfspId csrPem =>
    simp only [sampleClusterPolicy]
    split
    · rename_i hnone
      refine .inr ⟨1, hnone, ?_, rfl⟩
      rintro enrollment ⟨⟩
      rfl
    · exact .inl ⟨rfl, rfl⟩
  | signInboundEnrollment dfspId id =>
    simp only [sampleClusterPolicy]
    split
    · rename_i csrPem hcsr
      refine ⟨rfl, ?_⟩
      rintro enrollment certificate ⟨⟩ ⟨⟩
      refine ⟨csrPem, hcsr, ?_⟩
      simp [samplePki]
    · refine ⟨rfl, ?_⟩
      rintro enrollment certificate ⟨⟩
  | _ => rfl

def sampleServerCert : HubServerCertEnroller.Settings where
  dfspId := "pivotal"
  commonName := "pivotal.example"
  secretName := "hub-tls"
  renewBeforeDays := 30

end Trust

/-! The writer of Secrets by itself, with an API server that answers: what it puts is what it
reads. -/
namespace Trust
open Async.Program (Succeeds succeeds_perform succeeds_pure)
open KubernetesSecretWriter (decode encode encodeAll)

/-- The fields of the writer, the files of its account, and the cluster, with the number of writes
that it was sent. -/
structure Pod where
  connected : Bool
  podNamespace : Option String
  account : String → String
  cluster : Cluster
  writes : ℕ

namespace Pod

def write (s : Pod) (cluster : Cluster) : Pod :=
  { s with
    cluster := cluster
    writes := s.writes + 1 }

/-- How a call is answered when nothing fails. -/
def Serves (s : Pod) : (op : ClusterOp) → ClusterAnswer op → Pod → Prop
  | .client, a, s' => a = s.connected ∧ s' = s
  | .setClient, _, s' => s' = { s with connected := true }
  | .podNamespace, a, s' => a = s.podNamespace ∧ s' = s
  | .setPodNamespace value, _, s' => s' = { s with podNamespace := some value }
  | .readFile file, a, s' => a = .ok (s.account file) ∧ s' = s
  | .get ns name, a, s' => a = .ok (s.cluster.respond (ns, name)) ∧ s' = s
  | .patch ns name data, a, s' => ∃ secret, s.cluster.secrets (ns, name) = some secret ∧
      a = .done () ∧ s' = s.write (s.cluster.put (ns, name) (secret.merge data))
  | .post ns name data, a, s' => s.cluster.secrets (ns, name) = none ∧
      a = .done () ∧ s' = s.write (s.cluster.put (ns, name) (Secret.merge .empty data))
  | _, _, s' => s' = s

/-- What the writer remembers is what its account says. -/
def Consistent (s : Pod) : Prop :=
  ∀ ns, s.podNamespace = some ns → ns = Js.trim (s.account "namespace")

/-- The namespace that a call goes to. -/
def resolve (s : Pod) (target : Option String) : String :=
  ((target.map Js.trim).filter fun ns => 0 < ns.length).getD (Js.trim (s.account "namespace"))

/-- Nothing but what the writer remembers has changed. -/
structure Same (s s' : Pod) : Prop where
  cluster : s'.cluster = s.cluster
  writes : s'.writes = s.writes
  account : s'.account = s.account
  consistent : s'.Consistent

theorem Same.trans {s s' s'' : Pod} (h : s.Same s') (h' : s'.Same s'') : s.Same s'' :=
  ⟨h'.cluster.trans h.cluster, h'.writes.trans h.writes, h'.account.trans h.account, h'.consistent⟩

theorem resolve_congr {s s' : Pod} (h : s'.account = s.account) (target : Option String) :
    s'.resolve target = s.resolve target := by
  simp only [resolve, h]

variable {s : Pod}

theorem connect_succeeds (hs : s.Consistent) :
    KubernetesSecretWriter.connect.Succeeds Serves s fun s' _ => s.Same s' := by
  refine (succeeds_perform (R := fun s' connected => connected = s.connected ∧ s' = s) ?_).bind ?_
  · exact fun _ _ h => h
  rintro connected s' ⟨-, rfl⟩
  split
  · refine Succeeds.answered ?_
    rintro a s' ⟨rfl, rfl⟩
    refine ⟨_, rfl, Succeeds.answered ?_⟩
    rintro a s' ⟨rfl, rfl⟩
    refine ⟨_, rfl, succeeds_perform ?_⟩
    rintro _ s' rfl
    exact ⟨rfl, rfl, rfl, hs⟩
  · exact succeeds_pure ⟨rfl, rfl, rfl, hs⟩

theorem readNamespace_succeeds (hs : s.Consistent) :
    KubernetesSecretWriter.readNamespace.Succeeds Serves s fun s' ns =>
      s.Same s' ∧ ns = Js.trim (s.account "namespace") := by
  refine (succeeds_perform (R := fun s' ns => ns = s.podNamespace ∧ s' = s) ?_).bind ?_
  · exact fun _ _ h => h
  rintro ns s' ⟨rfl, rfl⟩
  split
  · rename_i ns hns
    exact succeeds_pure ⟨⟨rfl, rfl, rfl, hs⟩, hs ns hns⟩
  · refine Succeeds.answered ?_
    rintro a s'' ⟨rfl, rfl⟩
    refine ⟨_, rfl, Succeeds.bind (P := fun s' _ => Same s'' s') (succeeds_perform ?_) ?_⟩
    · rintro _ s' rfl
      refine ⟨rfl, rfl, rfl, ?_⟩
      rintro ns ⟨⟩
      rfl
    · rintro _ s' hsame
      exact succeeds_pure ⟨hsame, rfl⟩

theorem resolveNamespace_succeeds (hs : s.Consistent) (target : Option String) :
    (KubernetesSecretWriter.resolveNamespace target).Succeeds Serves s fun s' ns =>
      s.Same s' ∧ ns = s.resolve target := by
  cases target with
  | none => exact readNamespace_succeeds hs
  | some ns =>
    dsimp only [KubernetesSecretWriter.resolveNamespace, resolve, Option.map_some,
      Option.filter_some]
    generalize Js.trim ns = ns
    by_cases hns : 0 < ns.length
    · rw [if_pos hns]
      simp only [hns, decide_true, if_true, Option.getD_some]
      exact succeeds_pure ⟨⟨rfl, rfl, rfl, hs⟩, rfl⟩
    · rw [if_neg hns]
      simp only [hns, decide_false, Bool.false_eq_true, if_false, Option.getD_none]
      exact readNamespace_succeeds hs

theorem read_succeeds (hs : s.Consistent) (name key : String) (target : Option String) :
    (KubernetesSecretWriter.read name key target).Succeeds Serves s fun s' value =>
      s.Same s' ∧ value = ((s.cluster.secrets (s.resolve target, name)).bind fun secret =>
        secret.get key).map decode := by
  refine (connect_succeeds hs).bind fun _ s₁ h₁ => ?_
  refine (resolveNamespace_succeeds h₁.consistent target).bind ?_
  rintro ns s₂ ⟨h₂, rfl⟩
  have hsame : s.Same s₂ := h₁.trans h₂
  rw [resolve_congr h₁.account]
  refine Succeeds.answered ?_
  rintro a s₃ ⟨rfl, rfl⟩
  refine ⟨_, rfl, ?_⟩
  rw [hsame.cluster]
  cases hsecret : s.cluster.secrets (s.resolve target, name) with
  | none =>
    simp only [Cluster.respond, hsecret]
    exact succeeds_pure ⟨hsame, rfl⟩
  | some secret =>
    simp only [Cluster.respond, hsecret]
    exact succeeds_pure ⟨hsame, rfl⟩

/-- The Secret has every entry of `data`. -/
def Holds (s : Pod) (at' : String × String) (data : Secret) : Prop :=
  ∃ secret, s.cluster.secrets at' = some secret ∧
    ∀ key value, data.get key = some value → secret.get key = some (encode value)

omit s in
/-- What the writer compares. -/
theorem all_encodeAll_iff {current data : Secret} :
    ((encodeAll data).all fun (key, value) => current.get key = some value) = true ↔
      ∀ key value, data.get key = some value → current.get key = some (encode value) := by
  simp only [encodeAll, List.all_map, List.all_eq_true, Prod.forall, Js.Map.mem_entries,
    Function.comp_apply, decide_eq_true_eq]

/-- What a put leaves: the entries of `data`, beside what was there. It is no write where the
Secret has the entries already. -/
structure Put (s : Pod) (at' : String × String) (data : Secret) (s' : Pod) (changed : Bool) :
    Prop where
  account : s'.account = s.account
  consistent : s'.Consistent
  unchanged : s.Holds at' data →
    changed = false ∧ s'.cluster = s.cluster ∧ s'.writes = s.writes
  holds : s'.Holds at' data
  others : ∀ key, data.get key = none →
    (s'.cluster.secrets at').bind (fun secret => secret.get key) =
      (s.cluster.secrets at').bind fun secret => secret.get key
  elsewhere : ∀ at'', at'' ≠ at' → s'.cluster.secrets at'' = s.cluster.secrets at''

theorem Put.of_merge {s' : Pod} (at' : String × String) (data : Secret) (h : s.Same s')
    (hnot : ¬ s.Holds at' data) :
    s.Put at' data (s'.write (s'.cluster.put at'
      (((s.cluster.secrets at').getD .empty).merge (encodeAll data)))) true := by
  have hself : (s'.cluster.put at' (((s.cluster.secrets at').getD .empty).merge
      (encodeAll data))).secrets at' = some (((s.cluster.secrets at').getD .empty).merge
        (encodeAll data)) := Function.update_self ..
  refine ⟨h.account, h.consistent, fun hholds => absurd hholds hnot, ⟨_, hself, ?_⟩, ?_, ?_⟩
  · intro key value hvalue
    rw [get_merge_encodeAll, hvalue]
    rfl
  · intro key hkey
    refine (congrArg (Option.bind · fun secret => secret.get key) hself).trans ?_
    rw [Option.bind_some, get_merge_encodeAll, hkey]
    cases s.cluster.secrets at' <;> rfl
  · intro at'' hat
    show Function.update s'.cluster.secrets _ _ at'' = _
    rw [Function.update_of_ne hat, h.cluster]

theorem putIfChanged_succeeds (hs : s.Consistent) (name : String) (data : Secret)
    (target : Option String) :
    (KubernetesSecretWriter.putIfChanged name data target).Succeeds Serves s
      (s.Put (s.resolve target, name) data) := by
  refine (connect_succeeds hs).bind fun _ s₁ h₁ => ?_
  refine (resolveNamespace_succeeds h₁.consistent target).bind ?_
  rintro ns s₂ ⟨h₂, rfl⟩
  have hsame : s.Same s₂ := h₁.trans h₂
  rw [resolve_congr h₁.account]
  generalize s.resolve target = ns
  refine Succeeds.answered ?_
  rintro a s₃ ⟨rfl, rfl⟩
  refine ⟨_, rfl, ?_⟩
  rw [hsame.cluster]
  cases hsecret : s.cluster.secrets (ns, name) with
  | none =>
    have hnot : ¬ s.Holds (ns, name) data := by
      rintro ⟨secret, hsome, -⟩
      rw [hsecret] at hsome
      cases hsome
    have hput := Put.of_merge (ns, name) data hsame hnot
    rw [hsecret] at hput
    simp only [Cluster.respond, hsecret]
    refine Succeeds.answered ?_
    rintro a s' ⟨-, rfl, rfl⟩
    exact ⟨(), rfl, succeeds_pure hput⟩
  | some secret =>
    simp only [Cluster.respond, hsecret]
    by_cases hall : ∀ key value, data.get key = some value → secret.get key = some (encode value)
    · simp only [Option.getD_some, if_true, all_encodeAll_iff.mpr hall]
      refine succeeds_pure ⟨hsame.account, hsame.consistent, fun _ => ⟨rfl, hsame.cluster, hsame.writes⟩,
        ⟨secret, hsame.cluster ▸ hsecret, hall⟩, fun key _ => ?_, fun at' _ => ?_⟩
      · rw [hsame.cluster]
      · rw [hsame.cluster]
    · have hput := Put.of_merge (ns, name) data hsame ?_
      · rw [hsecret] at hput
        simp only [Option.getD_some, if_true, all_encodeAll_iff.not.mpr hall]
        refine Succeeds.answered ?_
        rintro a s' ⟨secret', hsecret', rfl, rfl⟩
        rw [hsame.cluster, hsecret] at hsecret'
        obtain rfl := Option.some.inj hsecret'
        exact ⟨(), rfl, succeeds_pure hput⟩
      · rintro ⟨secret', hsome, hall'⟩
        rw [hsecret] at hsome
        exact hall (Option.some.inj hsome ▸ hall')

/-- After a put that nothing disturbs, every entry is read back as it was given, the other entries
and the other Secrets are as they were, and putting it again sends no write. -/
theorem put_read (hs : s.Consistent) (name : String) (data : Secret) (target : Option String) :
    (KubernetesSecretWriter.putIfChanged name data target).Succeeds Serves s fun s' _ =>
      (∀ key value, data.get key = some value →
        (KubernetesSecretWriter.read name key target).Succeeds Serves s' fun _ read =>
          read = some value) ∧
      (∀ key, data.get key = none →
        (s'.cluster.secrets (s.resolve target, name)).bind (fun secret => secret.get key) =
          (s.cluster.secrets (s.resolve target, name)).bind fun secret => secret.get key) ∧
      (∀ at', at' ≠ (s.resolve target, name) → s'.cluster.secrets at' = s.cluster.secrets at') ∧
      (KubernetesSecretWriter.putIfChanged name data target).Succeeds Serves s' fun s'' changed =>
        changed = false ∧ s''.cluster = s'.cluster ∧ s''.writes = s'.writes := by
  refine (putIfChanged_succeeds hs name data target).mono ?_
  intro s' changed h
  have hresolve := resolve_congr h.account target
  refine ⟨fun key value hvalue => ?_, h.others, h.elsewhere, ?_⟩
  · refine (read_succeeds h.consistent name key target).mono ?_
    rintro s'' read ⟨-, rfl⟩
    obtain ⟨secret, hsecret, hall⟩ := h.holds
    rw [hresolve, hsecret, Option.bind_some, hall key value hvalue, Option.map_some]
    show some (Js.Buffer.toUtf8 (Js.Buffer.fromBase64Url (Js.Buffer.toBase64 _))) = _
    rw [Js.Buffer.fromBase64Url_toBase64, Js.Buffer.toUtf8_fromUtf8]
  · refine (putIfChanged_succeeds h.consistent name data target).mono fun s'' changed' h' => ?_
    exact h'.unchanged (hresolve ▸ h.holds)

end Pod

def samplePod : Pod := ⟨false, none, fun _ => "pivotal\n", sampleCluster, 0⟩

def sampleData : Secret := Js.Map.empty.set "hub-ca.pem" "BEGIN CERTIFICATE\n"

theorem sample_put_read : ∃ s',
    (KubernetesSecretWriter.putIfChanged "hub-ca" sampleData none).Executes
      Pod.Serves samplePod (.ok true) s' ∧
    s'.writes = 1 ∧
    (KubernetesSecretWriter.read "hub-ca" "hub-ca.pem" none).Succeeds Pod.Serves s' (fun _ read =>
      read = some "BEGIN CERTIFICATE\n") ∧
    (KubernetesSecretWriter.putIfChanged "hub-ca" sampleData none).Succeeds Pod.Serves s'
      fun s'' changed => changed = false ∧ s''.cluster = s'.cluster ∧ s''.writes = s'.writes := by
  have hrun : (KubernetesSecretWriter.putIfChanged "hub-ca" sampleData none).Executes
      Pod.Serves samplePod (.ok true) _ :=
    .call ⟨rfl, rfl⟩ (.call ⟨rfl, rfl⟩ (.call ⟨rfl, rfl⟩ (.call (a := ()) rfl
      (.call ⟨rfl, rfl⟩ (.call ⟨rfl, rfl⟩ (.call (a := ()) rfl (.call ⟨rfl, rfl⟩
        (.call ⟨rfl, rfl, rfl⟩ (.done _ _)))))))))
  have hput := Pod.put_read (s := samplePod) (by rintro ns ⟨⟩) "hub-ca" sampleData none
  obtain ⟨changed, hchanged, hread, -, -, hagain⟩ := Async.Program.Ensures.of_executes hput hrun
  exact ⟨_, hrun, rfl, hread "hub-ca.pem" _ rfl, hagain⟩

end Trust
