import Pivotal.Async.Pool
import Pivotal.Async.Write
import Pivotal.Nats.Subject

/-! The listeners of connectors, each with a durable consumer of its own on one stream. -/
namespace Connector
open Async (Config Event Label Monitor Process Program System Written forall_update update_eq_some)
open Async.Program (lift perform)
open Nats (subjectMatches tokens tokenMatches tokensMatch tokensMatch_iff forall₂_append_iff)

/-- The four listeners of a connector. -/
inductive ListenerKind where
  | getParties
  | postQuotes
  | postTransfers
  | patchTransfers
  deriving DecidableEq

namespace ListenerKind

def durablePrefix : ListenerKind → String
  | .getParties => "connector-consumer-get-parties"
  | .postQuotes => "connector-consumer-post-quotes"
  | .postTransfers => "connector-consumer-post-transfers"
  | .patchTransfers => "connector-consumer-patch-transfers"

def subjectFor (kind : ListenerKind) (payeeFsp : String) : String :=
  match kind with
  | .getParties => "fspiop." ++ payeeFsp ++ ".get.parties"
  | .postQuotes => "fspiop." ++ payeeFsp ++ ".post.quotes"
  | .postTransfers => "fspiop." ++ payeeFsp ++ ".post.transfers"
  | .patchTransfers => "fspiop." ++ payeeFsp ++ ".patch.transfers"

end ListenerKind

/-- Lower-casing, where it ends at a basic letter: only two other characters have one for it. What
other letters become is no basic letter either, and as long as they are. -/
def lowerSegment (c : Char) : List Char :=
  if c = '\u212A' then ['k']
  else if c = '\u0130' then ['i', '\u0307']
  else [c.toLower]

/-- `[a-z0-9_-]` -/
def isSegmentChar (c : Char) : Bool :=
  ('a' ≤ c && c ≤ 'z') || ('0' ≤ c && c ≤ '9') || c = '_' || c = '-'

/-- Each code unit of any other character becomes a hyphen. -/
def replaceUnits (c : Char) : List Char :=
  if isSegmentChar c then [c] else List.replicate (if c.toNat < 0x10000 then 1 else 2) '-'

def normalizeDurableSegment (value : String) : String :=
  let normalized := ((Js.trimChars value.toList).flatMap lowerSegment).flatMap replaceUnits
  if normalized.isEmpty then "default" else String.ofList normalized

def durableFor (kind : ListenerKind) (connectorId : String) : String :=
  kind.durablePrefix ++ "-" ++ normalizeDurableSegment connectorId

/-- A listener of a connector. -/
structure Listener where
  kind : ListenerKind
  connectorId : String
  deriving DecidableEq

namespace Listener

def subject (l : Listener) : String := l.kind.subjectFor (Js.trim l.connectorId)

def durable (l : Listener) : String := durableFor l.kind (Js.trim l.connectorId)

end Listener

structure NatsError where
  code : Option String
  message : String
  deriving DecidableEq

/-- The calls of a listener to the server. -/
inductive StreamOp where
  | resolveFspiopStream (subject : String)
  | info (durable : String)
  | add (durable subject : String)
  | get (durable : String)
  deriving DecidableEq

@[reducible] def StreamAnswer : StreamOp → Type
  | .resolveFspiopStream _ => Except NatsError Unit
  | .info _ => Except NatsError Unit
  | .add _ _ => Written NatsError Unit
  | .get _ => Except NatsError Unit

abbrev ListenerProgram := Async.Program StreamOp StreamAnswer NatsError

/-- A consumer that has the name is taken as it is. -/
def ensureConsumer (durable subject : String) : ListenerProgram Unit := do
  match ((← perform (StreamOp.info durable)) : Except NatsError Unit) with
  | .ok _ => return
  | .error e =>
    if e.code ≠ some "404" then
      throw e
    let added ← perform (StreamOp.add durable subject)
    lift (Written.toExcept added)

def Listener.onModuleInit (l : Listener) : ListenerProgram Unit := do
  lift (← perform (StreamOp.resolveFspiopStream l.subject))
  ensureConsumer l.durable l.subject
  lift (← perform (StreamOp.get l.durable))

/-- The consumers of a stream: the filter of each, by its durable name. -/
abbrev Consumers := String → Option String

/-- What one call answers and does. A consumer that is there is not added with another filter. -/
def Consumers.performs (s : Consumers) : (op : StreamOp) → StreamAnswer op → Consumers → Prop
  | .resolveFspiopStream _, _, s' => s' = s
  | .info durable, .ok _, s' => (s durable).isSome ∧ s' = s
  | .info durable, .error e, s' => (e.code = some "404" → s durable = none) ∧ s' = s
  | .add _ _, .rejected _, s' => s' = s
  | .add durable subject, _, s' => (∀ filter ∈ s durable, filter = subject) ∧
    s' = Function.update s durable (some subject)
  | .get durable, .ok _, s' => (s durable).isSome ∧ s' = s
  | .get _, .error _, s' => s' = s

/-- Any number of listeners on one stream. -/
def stream : System StreamOp StreamAnswer NatsError Unit Listener Consumers where
  entry := Listener.onModuleInit
  perform := Consumers.performs
  background _ _ := False

abbrev Stream (ι : Type) := Config ι StreamOp StreamAnswer NatsError Unit Listener Consumers

section Names

/-- The tokens of an identifier that stand for those of another. -/
def IdMatches (id id' : String) : Prop :=
  List.Forall₂ (fun f t => tokenMatches f t = true) (tokens id) (tokens id')

def ListenerKind.ending : ListenerKind → List (List Char)
  | .getParties => ["get".toList, "parties".toList]
  | .postQuotes => ["post".toList, "quotes".toList]
  | .postTransfers => ["post".toList, "transfers".toList]
  | .patchTransfers => ["patch".toList, "transfers".toList]

theorem tokens_subjectFor (kind : ListenerKind) (id : String) :
    tokens (kind.subjectFor id) = "fspiop".toList :: (tokens id ++ kind.ending) := by
  have hsplit : ∀ rest : List Char, Js.split '.' ("fspiop.".toList ++ id.toList ++ '.' :: rest) =
      "fspiop".toList :: (tokens id ++ Js.split '.' rest) := by
    intro rest
    rw [Js.split_append_sep, show "fspiop.".toList ++ id.toList =
      "fspiop".toList ++ '.' :: id.toList from rfl, Js.split_append_sep]
    rfl
  rw [tokens]
  cases kind with
  | getParties =>
    rw [ListenerKind.subjectFor, String.toList_append, String.toList_append]
    exact hsplit "get.parties".toList
  | postQuotes =>
    rw [ListenerKind.subjectFor, String.toList_append, String.toList_append]
    exact hsplit "post.quotes".toList
  | postTransfers =>
    rw [ListenerKind.subjectFor, String.toList_append, String.toList_append]
    exact hsplit "post.transfers".toList
  | patchTransfers =>
    rw [ListenerKind.subjectFor, String.toList_append, String.toList_append]
    exact hsplit "patch.transfers".toList

theorem ending_matches_iff (kind kind' : ListenerKind) :
    List.Forall₂ (fun f t => tokenMatches f t = true) kind.ending kind'.ending ↔ kind = kind' := by
  cases kind <;> cases kind' <;> simp [ListenerKind.ending, tokenMatches]

/-- The filter of a listener stands for a subject of its own kind, when its identifier does. -/
theorem subjectMatches_iff {kind kind' : ListenerKind} {id id' : String} :
    subjectMatches (kind.subjectFor id) (kind'.subjectFor id') = true ↔
      kind = kind' ∧ IdMatches id id' := by
  have hlast : (tokens (kind.subjectFor id)).getLast? ≠ some ['>'] := by
    rw [tokens_subjectFor]
    cases kind <;> simp [ListenerKind.ending, List.getLast?_cons]
  have hlength : kind.ending.length = kind'.ending.length := by cases kind <;> cases kind' <;> rfl
  rw [subjectMatches, tokensMatch_iff hlast, tokens_subjectFor, tokens_subjectFor,
    List.forall₂_cons, forall₂_append_iff hlength, ending_matches_iff]
  simp [IdMatches, and_comm]

/-- The kind that a durable name begins with. -/
def kindOf (cs : List Char) : ListenerKind :=
  if cs[19]? = some 'g' then .getParties
  else if cs[20]? = some 'a' then .patchTransfers
  else if cs[24]? = some 'q' then .postQuotes
  else .postTransfers

theorem kindOf_durablePrefix (kind : ListenerKind) (rest : List Char) :
    kindOf (kind.durablePrefix.toList ++ rest) = kind := by
  cases kind <;> rfl

theorem durableFor_inj {kind kind' : ListenerKind} {id id' : String}
    (h : durableFor kind id = durableFor kind' id') :
    kind = kind' ∧ normalizeDurableSegment id = normalizeDurableSegment id' := by
  have hchars := congrArg String.toList h
  simp only [durableFor, String.toList_append, List.append_assoc] at hchars
  have hkind := congrArg kindOf hchars
  rw [kindOf_durablePrefix, kindOf_durablePrefix] at hkind
  subst hkind
  have hrest := List.append_cancel_left (List.append_cancel_left hchars)
  exact ⟨rfl, String.toList_injective hrest⟩

end Names

/-- A listener, and whether it has got its consumer. -/
structure Attendance where
  listener : Listener
  attached : Bool
  deriving DecidableEq

namespace Attendance

def next (r : Attendance) : (op : StreamOp) → StreamAnswer op → Attendance
  | .get _, .ok _ => { r with attached := true }
  | _, _ => r

/-- A listener only adds its own consumer. -/
def allows (r : Attendance) : StreamOp → Prop
  | .add durable subject => durable = r.listener.durable ∧ subject = r.listener.subject
  | .get durable => durable = r.listener.durable
  | _ => True

end Attendance

def attendances : Monitor StreamOp StreamAnswer Attendance where
  next := Attendance.next
  allows := Attendance.allows

theorem listener_after (r : Attendance) (t : List (Event StreamOp StreamAnswer)) :
    (attendances.after r t).listener = r.listener := by
  induction t generalizing r with
  | nil => rfl
  | cons e t ih =>
    refine (ih _).trans ?_
    simp only [attendances, Attendance.next]
    split <;> rfl

theorem ensureConsumer_obeys (l : Listener) :
    (ensureConsumer l.durable l.subject).Obeys attendances ⟨l, false⟩
      fun r _ => r = ⟨l, false⟩ := by
  refine ⟨trivial, ?_⟩
  rintro (e | _)
  · by_cases hcode : e.code = some "404"
    · simp only [Program.settle, Program.onOk_ok, hcode, ne_eq, not_true_eq_false, if_false]
      refine ⟨⟨rfl, rfl⟩, ?_⟩
      rintro (_ | _ | _) <;> rfl
    · simp only [Program.settle, Program.onOk_ok, ne_eq, hcode, not_false_eq_true, if_true]
      rfl
  · rfl

theorem onModuleInit_obeys (l : Listener) : l.onModuleInit.Obeys attendances ⟨l, false⟩
    fun r res => res = .ok () → r.attached = true := by
  apply Program.Obeys.afterPerform trivial
  intro resolved
  apply Program.Obeys.afterLift (by simp)
  intro _ _
  apply (ensureConsumer_obeys l).seq
  · rintro _ r rfl
    apply Program.Obeys.afterPerform (M := attendances)
    · rfl
    · rintro (e | _)
      · simp
      · exact fun _ => rfl
  · simp

section Run

variable {ι : Type} [DecidableEq ι] {ids : List String} {s s' : Consumers}
  {f : ι → Option Attendance} {c : Stream ι}

/-- Only listeners of the connectors are started. -/
def StartsOf (ids : List String) : Label ι StreamOp StreamAnswer Listener → Prop
  | .start _ l => l.connectorId ∈ ids
  | _ => True

/-- Every consumer is as one of the listeners has added it, and those that listen have one. -/
structure Added (ids : List String) (s : Consumers) (f : ι → Option Attendance) : Prop where
  listed : ∀ i r, f i = some r → r.listener.connectorId ∈ ids
  added : ∀ durable filter, s durable = some filter →
    ∃ l : Listener, l.connectorId ∈ ids ∧ l.durable = durable ∧ l.subject = filter
  attached : ∀ i r, f i = some r → r.attached = true → (s r.listener.durable).isSome

theorem Added.update (h : Added ids s f) {i : ι} {r' : Attendance}
    (hlisted : r'.listener.connectorId ∈ ids)
    (hattached : r'.attached = true → (s r'.listener.durable).isSome) :
    Added ids s (Function.update f i (some r')) where
  listed := by
    intro j r hj
    rcases update_eq_some.mp hj with ⟨-, heq⟩ | ⟨-, hj⟩
    · cases heq
      exact hlisted
    · exact h.listed j r hj
  added := h.added
  attached := by
    intro j r hj hr
    rcases update_eq_some.mp hj with ⟨-, heq⟩ | ⟨-, hj⟩
    · cases heq
      exact hattached hr
    · exact h.attached j r hj hr

omit [DecidableEq ι] in
theorem Added.adds (h : Added ids s f) {l : Listener} (hl : l.connectorId ∈ ids) :
    Added ids (Function.update s l.durable (some l.subject)) f where
  listed := h.listed
  added := by
    intro durable filter hs
    by_cases hdurable : durable = l.durable
    · subst hdurable
      rw [Function.update_self, Option.some.injEq] at hs
      exact ⟨l, hl, rfl, hs⟩
    · rw [Function.update_of_ne hdurable] at hs
      exact h.added durable filter hs
  attached := by
    intro i r hi hr
    by_cases hdurable : r.listener.durable = l.durable
    · simp [hdurable]
    · rw [Function.update_of_ne hdurable]
      exact h.attached i r hi hr

theorem Added.call (h : Added ids s f) {i : ι} {r : Attendance} {op : StreamOp}
    {a : StreamAnswer op} (hi : f i = some r) (hr : r.allows op) (hp : s.performs op a s') :
    Added ids s' (Function.update f i (some (r.next op a))) := by
  have hlisted := h.listed i r hi
  have hstays : Added ids s (Function.update f i (some r)) := h.update hlisted (h.attached i r hi)
  cases op with
  | resolveFspiopStream subject =>
    obtain rfl : s' = s := hp
    exact hstays
  | info durable =>
    cases a with
    | ok _ =>
      obtain ⟨-, rfl⟩ := hp
      exact hstays
    | error e =>
      obtain ⟨-, rfl⟩ := hp
      exact hstays
  | add durable subject =>
    obtain ⟨rfl, rfl⟩ := hr
    cases a with
    | done _ =>
      obtain ⟨-, rfl⟩ := hp
      exact hstays.adds hlisted
    | lost e =>
      obtain ⟨-, rfl⟩ := hp
      exact hstays.adds hlisted
    | rejected e =>
      obtain rfl : s' = s := hp
      exact hstays
  | get durable =>
    obtain rfl : durable = r.listener.durable := hr
    cases a with
    | ok _ =>
      obtain ⟨hsome, rfl⟩ := hp
      exact h.update hlisted fun _ => hsome
    | error e =>
      obtain rfl : s' = s := hp
      exact hstays

theorem added_reached (h : stream.Reaches (fun _ l => StartsOf ids l) (.initial fun _ => none) c) :
    Added ids c.shared (c.records attendances fun l => ⟨l, false⟩) := by
  refine System.Reaches.records_invariant (fun _ _ l => StartsOf ids l) (Added ids) h
    onModuleInit_obeys ⟨nofun, nofun, nofun⟩ ?_
  intro s f l s' f' hinv hl hmove
  cases hmove with
  | start job hi => exact hinv.update hl nofun
  | call hi hr hp => exact hinv.call hi hr hp
  | crash hi hr =>
    refine ⟨fun j r hj => hinv.listed j r (Async.of_update_none hj).2, hinv.added, ?_⟩
    exact fun j r hj => hinv.attached j r (Async.of_update_none hj).2
  | background hb => exact hb.elim

/-- A listener that has started consumes from its durable. -/
def Stream.Listens (c : Stream ι) (l : Listener) : Prop :=
  ∃ i p, c.process i = some p ∧ p.job = l ∧ p.program.result = some (.ok ())

/-- A message of the subject is delivered from the durable of the listener. -/
def Receives (s : Consumers) (l : Listener) (subject : String) : Prop :=
  ∃ filter, s l.durable = some filter ∧ subjectMatches filter subject = true

/-- Each listener has a consumer of its own subject, and what is published for a connector is
delivered from there and from no other. -/
def Stream.Connected (ids : List String) (c : Stream ι) : Prop :=
  ∀ l, c.Listens l → c.shared l.durable = some l.subject ∧
    ∀ kind : ListenerKind, ∀ id ∈ ids,
      Receives c.shared l (kind.subjectFor id) ↔ kind = l.kind ∧ id = l.connectorId

/-- Each identifier stands for itself, and any two of them have different durable names and do not
stand for each other. -/
def Separate (ids : List String) : Prop :=
  (∀ id ∈ ids, IdMatches (Js.trim id) id) ∧
    ∀ id ∈ ids, ∀ id' ∈ ids, id ≠ id' →
      normalizeDurableSegment id ≠ normalizeDurableSegment id' ∧ ¬ IdMatches (Js.trim id) id'

theorem normalizeDurableSegment_trim (id : String) :
    normalizeDurableSegment (Js.trim id) = normalizeDurableSegment id := by
  rw [normalizeDurableSegment, normalizeDurableSegment, Js.trim, String.toList_ofList,
    Js.trimChars_idem]

/-- Listeners of separate connectors have different durables. -/
theorem Separate.eq_of_durable (h : Separate ids) {l l' : Listener} (hl : l.connectorId ∈ ids)
    (hl' : l'.connectorId ∈ ids) (hdurable : l.durable = l'.durable) : l = l' := by
  obtain ⟨hkind, hsegment⟩ := durableFor_inj hdurable
  rw [normalizeDurableSegment_trim, normalizeDurableSegment_trim] at hsegment
  have hid : l.connectorId = l'.connectorId := by
    by_contra hne
    exact (h.2 _ hl _ hl' hne).1 hsegment
  cases l
  cases l'
  simp_all

theorem Separate.idMatches_iff (h : Separate ids) {id id' : String} (hid : id ∈ ids)
    (hid' : id' ∈ ids) : IdMatches (Js.trim id) id' ↔ id' = id := by
  constructor
  · intro hmatches
    by_contra hne
    exact (h.2 id hid id' hid' (Ne.symm hne)).2 hmatches
  · rintro rfl
    exact h.1 id' hid'

/-- What a listener receives from a consumer of its own subject. -/
theorem receives_iff {l : Listener} (h : s l.durable = some l.subject) (kind : ListenerKind)
    (id : String) : Receives s l (kind.subjectFor id) ↔
      kind = l.kind ∧ IdMatches (Js.trim l.connectorId) id := by
  rw [Receives, h]
  simp only [Option.some.injEq, exists_eq_left']
  rw [Listener.subject, subjectMatches_iff]
  exact and_congr_left' eq_comm

theorem connected_of_separate (hids : Separate ids)
    (h : stream.Reaches (fun _ l => StartsOf ids l) (.initial fun _ => none) c) :
    c.Connected ids := by
  have hinv := added_reached h
  rintro l ⟨i, ⟨job, t, p⟩, hi, rfl, hresult⟩
  cases p with
  | call op resume => cases hresult
  | done r =>
    have hattached := h.settled onModuleInit_obeys hi (Option.some.inj hresult)
    have hrecord : c.records attendances (fun l => ⟨l, false⟩) i =
        some (Process.record attendances (fun l => ⟨l, false⟩) ⟨job, t, .done r⟩) :=
      Config.records_eq hi
    have hlistener := listener_after ⟨job, false⟩ t
    have hlisted := hinv.listed i _ hrecord
    obtain ⟨filter, hfilter⟩ := Option.isSome_iff_exists.mp (hinv.attached i _ hrecord hattached)
    rw [Process.record, hlistener] at hlisted hfilter
    obtain ⟨l', hl', hdurable, rfl⟩ := hinv.added _ _ hfilter
    obtain rfl : l' = job := hids.eq_of_durable hl' hlisted hdurable
    refine ⟨hfilter, fun kind id hid => ?_⟩
    rw [receives_iff hfilter, hids.idMatches_iff hlisted hid]

/-- A server that does what it is asked. -/
def Consumers.respond (s : Consumers) : (op : StreamOp) → StreamAnswer op × Consumers
  | .resolveFspiopStream _ => (.ok (), s)
  | .info durable =>
    (if (s durable).isSome then .ok () else .error ⟨some "404", "consumer not found"⟩, s)
  | .add durable subject =>
    if ∀ filter ∈ s durable, filter = subject then
      (.done (), Function.update s durable (some subject))
    else (.rejected ⟨none, "consumer already exists"⟩, s)
  | .get durable =>
    (if (s durable).isSome then .ok () else .error ⟨some "404", "consumer not found"⟩, s)

theorem Consumers.performs_respond (s : Consumers) (op : StreamOp) :
    s.performs op (s.respond op).1 (s.respond op).2 := by
  cases op with
  | resolveFspiopStream subject => exact rfl
  | info durable =>
    cases hs : s durable <;> simp [respond, performs, hs]
  | add durable subject =>
    by_cases hfilter : ∀ filter ∈ s durable, filter = subject
    · simp only [respond, if_pos hfilter]
      exact ⟨hfilter, rfl⟩
    · simp only [respond, if_neg hfilter]
      exact rfl
  | get durable =>
    cases hs : s durable <;> simp [respond, performs, hs]

/-- A listener that starts takes the consumer that is there, or adds its own. -/
theorem solo_onModuleInit (l : Listener) (s : Consumers) (t : List (Event StreamOp StreamAnswer)) :
    (l.onModuleInit.solo Consumers.respond s t).1 =
        (if (s l.durable).isSome then s else Function.update s l.durable (some l.subject)) ∧
      (l.onModuleInit.solo Consumers.respond s t).2.2 = .ok () := by
  cases hs : s l.durable with
  | none =>
    simp [Listener.onModuleInit, ensureConsumer, perform, lift, bind, pure, Program.settle,
      Program.solo, Consumers.respond, hs]
  | some filter =>
    simp [Listener.onModuleInit, ensureConsumer, perform, lift, bind, pure, Program.settle,
      Program.solo, Consumers.respond, hs]

/-- A listener may start at any time, and run to its end by itself. -/
theorem exists_listens (h : stream.Reaches (fun _ l => StartsOf ids l) (.initial fun _ => none) c)
    {i : ι} (hi : c.process i = none) {l : Listener} (hl : l.connectorId ∈ ids) :
    ∃ c' : Stream ι, stream.Reaches (fun _ l => StartsOf ids l) (.initial fun _ => none) c' ∧
      c'.Listens l ∧ (∀ j, j ≠ i → c'.process j = c.process j) ∧
      c'.shared = if (c.shared l.durable).isSome then c.shared
        else Function.update c.shared l.durable (some l.subject) := by
  obtain ⟨hshared, hresult⟩ := solo_onModuleInit l c.shared []
  refine ⟨_, h.solo i l hi Consumers.performs_respond hl
    (Program.soloAll_of_forall (fun _ _ _ _ => trivial) _ _ _), ?_, ?_, ?_⟩
  · exact ⟨i, _, Config.put_self _ _ _, rfl, congrArg some hresult⟩
  · intro j hj
    rw [Config.put_ne _ hj, Config.withShared_process]
  · exact hshared

/-- What one listener by itself says of its identifier. -/
theorem idMatches_of_connected
    (h : ∀ c : Stream ι, stream.Reaches (fun _ l => StartsOf ids l) (.initial fun _ => none) c →
      c.Connected ids) (i : ι) {id id' : String} (hid : id ∈ ids) (hid' : id' ∈ ids) :
    IdMatches (Js.trim id) id' ↔ id' = id := by
  have hstart : stream.Reaches (fun _ l => StartsOf ids l) (.initial fun _ => none)
      (.initial fun _ => none : Stream ι) := .refl
  obtain ⟨c, hc, hlistens, -, -⟩ :=
    exists_listens hstart (i := i) rfl (l := ⟨.postTransfers, id⟩) hid
  obtain ⟨hfilter, hreceives⟩ := h c hc _ hlistens
  have hboth := (receives_iff hfilter .postTransfers id').symm.trans (hreceives .postTransfers id' hid')
  simpa using hboth

end Run

/-- Identifiers whose listeners are always connected, in whichever order they start, are
separate. -/
theorem separate_of_connected {ids : List String}
    (h : ∀ c : Stream ℕ, stream.Reaches (fun _ l => StartsOf ids l) (.initial fun _ => none) c →
      c.Connected ids) : Separate ids := by
  refine ⟨fun id hid => (idMatches_of_connected h 0 hid hid).mpr rfl, ?_⟩
  intro id hid id' hid' hne
  refine ⟨fun hsegment => ?_, fun hmatches => ?_⟩
  · have hdurable : (⟨.postTransfers, id'⟩ : Listener).durable =
        (⟨.postTransfers, id⟩ : Listener).durable := by
      simp [Listener.durable, durableFor, normalizeDurableSegment_trim, hsegment]
    have hstart : stream.Reaches (fun _ l => StartsOf ids l) (.initial fun _ => none)
        (.initial fun _ => none : Stream ℕ) := .refl
    obtain ⟨c, hc, -, hothers, hshared⟩ :=
      exists_listens hstart (i := 0) rfl (l := ⟨.postTransfers, id⟩) hid
    obtain ⟨c', hc', hlistens, -, hshared'⟩ := exists_listens hc (i := 1)
      (hothers 1 (by decide)) (l := ⟨.postTransfers, id'⟩) hid'
    obtain ⟨hfilter, hreceives⟩ := h c' hc' _ hlistens
    -- The second listener has taken the consumer of the first one.
    have htaken : c'.shared (⟨.postTransfers, id'⟩ : Listener).durable =
        some (⟨.postTransfers, id⟩ : Listener).subject := by
      rw [hshared', hdurable, hshared]
      simp [Config.initial]
    have hsubject := Option.some.inj (htaken.symm.trans hfilter)
    have hown := (hreceives .postTransfers id hid).mp ⟨_, htaken, subjectMatches_iff.mpr
      ⟨rfl, (idMatches_of_connected h 0 hid hid).mpr rfl⟩⟩
    exact hne hown.2
  · exact hne ((idMatches_of_connected h 0 hid hid').mp hmatches).symm

/-- Listeners are connected in every run if and only if their connectors are separate. -/
theorem connectors_connected_iff (ids : List String) :
    (∀ c : Stream ℕ, stream.Reaches (fun _ l => StartsOf ids l) (.initial fun _ => none) c →
      c.Connected ids) ↔ Separate ids :=
  ⟨separate_of_connected, fun hids _ hc => connected_of_separate hids hc⟩

/-- Two identifiers that differ in a capital share their durables. -/
theorem not_connectors_connected :
    ¬ ∀ (ids : List String) (c : Stream ℕ), ids.Nodup →
      stream.Reaches (fun _ l => StartsOf ids l) (.initial fun _ => none) c → c.Connected ids := by
  intro h
  have hseparate : Separate ["wallet1", "Wallet1"] :=
    separate_of_connected fun c hc => h _ c (by decide) hc
  exact (hseparate.2 "wallet1" (by simp) "Wallet1" (by simp) (by decide)).1 (by decide +kernel)

end Connector
