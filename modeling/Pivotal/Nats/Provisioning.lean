import Mathlib.Data.List.Nodup
import Pivotal.Nats.StreamProvisioner

/-! What a caller that resolves a stream may say of it when it finishes. -/
namespace Nats
open Async (Config Event Label Monitor Process Program System update_eq_some)
open StreamProvisioner

namespace Streams

variable {s s' : Streams} {config config' : StreamConfig} {name subject : String} {limits : Limits}

theorem Separate.eq_of_name (h : s.Separate) (hc : config ∈ s) (hc' : config' ∈ s)
    (hname : config.name = config'.name) : config = config' := by
  have hnames : (s.map StreamConfig.name).Nodup := List.pairwise_map.mpr (h.imp And.left)
  exact List.inj_on_of_nodup_map hnames hc hc' hname

theorem Separate.owners_eq (h : s.Separate) (hc : config ∈ s) (howns : config.owns subject = true) :
    s.owners subject = [config] := by
  induction s with
  | nil => cases hc
  | cons first rest ih =>
    obtain ⟨hfirst, hrest⟩ := List.pairwise_cons.mp h
    rcases List.mem_cons.mp hc with rfl | hmem
    · have hnone : rest.filter (fun other => other.owns subject) = [] := by
        rw [List.filter_eq_nil_iff]
        exact fun other hother hboth => (hfirst other hother).2 subject ⟨howns, hboth⟩
      simp [owners, howns, hnone]
    · have hnot : first.owns subject = false := by
        cases hother : first.owns subject with
        | false => rfl
        | true => exact absurd ⟨hother, howns⟩ ((hfirst config hmem).2 subject)
      simpa [owners, hnot] using ih hrest hmem

theorem mem_of_owners (h : s.owners subject = [config]) :
    config ∈ s ∧ config.owns subject = true := by
  have hmem : config ∈ s.owners subject := h ▸ List.mem_cons_self
  simpa [owners] using hmem

theorem mem_setLimits (h : config ∈ s) : (if config.name = name then { config with limits := limits }
    else config) ∈ s.setLimits name limits :=
  List.mem_map.mpr ⟨config, h, rfl⟩

theorem Separate.setLimits (h : s.Separate) (name : String) (limits : Limits) :
    (s.setLimits name limits).Separate := by
  refine List.pairwise_map.mpr (h.imp fun {a b} hab => ?_)
  split <;> split <;> exact hab

/-- The streams of a name that own a subject: a creation or another's limits keep them there. -/
def Has (s : Streams) (name subject : String) : Prop :=
  ∃ config ∈ s, config.name = name ∧ config.owns subject = true

def Carries (s : Streams) (name subject : String) (limits : Limits) : Prop :=
  ∃ config ∈ s, config.name = name ∧ config.owns subject = true ∧ config.limits = limits

theorem Has.setLimits (h : s.Has name subject) (name' : String) (limits : Limits) :
    (s.setLimits name' limits).Has name subject := by
  obtain ⟨config, hmem, hname, howns⟩ := h
  refine ⟨_, mem_setLimits hmem, ?_, ?_⟩ <;> split <;> assumption

theorem Carries.setLimits (h : s.Carries name subject limits) {name' : String} {limits' : Limits}
    (hsame : name = name' → limits = limits') :
    (s.setLimits name' limits').Carries name subject limits := by
  obtain ⟨config, hmem, rfl, howns, rfl⟩ := h
  refine ⟨_, mem_setLimits hmem, ?_, ?_, ?_⟩
  · split <;> rfl
  · split <;> exact howns
  · split
    · exact (hsame ‹_›).symm
    · rfl

theorem Has.carries_setLimits (h : s.Has name subject) (limits : Limits) :
    (s.setLimits name limits).Carries name subject limits := by
  obtain ⟨config, hmem, hname, howns⟩ := h
  refine ⟨_, mem_setLimits hmem, ?_, ?_, ?_⟩
  · split <;> exact hname
  · split <;> exact howns
  · rw [if_pos hname]

theorem Has.mono (h : s.Has name subject) (hs : ∀ config ∈ s, config ∈ s') : s'.Has name subject := by
  obtain ⟨config, hmem, hboth⟩ := h
  exact ⟨config, hs config hmem, hboth⟩

theorem Carries.mono (h : s.Carries name subject limits) (hs : ∀ config ∈ s, config ∈ s') :
    s'.Carries name subject limits := by
  obtain ⟨config, hmem, hall⟩ := h
  exact ⟨config, hs config hmem, hall⟩

end Streams

/-- A request that failed. No stream for a subject, no stream of a name and a lost creation are
answers. -/
def failed : Event Op Answer → Bool
  | ⟨.find _, .error error⟩ => !isNoStreamMatchesSubjectError error
  | ⟨.info _, .error error⟩ => !isStreamNotFoundError error
  | ⟨.update _ _, .error _⟩ => true
  | ⟨.add _, .error error⟩ => !isStreamAlreadyExistsError error
  | _ => false

/-- How far a call is: whether no request has failed, whether it has created, what it has found, and
whether the stream it enforces carries its limits, or is absent. -/
structure Resolving where
  call : Resolve
  clean : Bool
  created : Bool
  unresolved : Bool
  found : Option String
  enforced : Option Bool
  waiting : Bool
  deriving DecidableEq

namespace Resolving

def initial (call : Resolve) : Resolving := ⟨call, true, false, false, none, none, false⟩

/-- What an answer tells the call. -/
def learn (r : Resolving) : (op : Op) → Answer op → Resolving
  | .find _, .ok name => { r with found := some name, waiting := true }
  | .find _, .error error =>
    { r with unresolved := r.created && isNoStreamMatchesSubjectError error, waiting := true }
  | .info _, .ok config =>
    { r with
      enforced := if config.limits = r.call.limits.desired then some true else none
      waiting := true }
  | .info _, .error error =>
    { r with
      enforced := if isStreamNotFoundError error then some false else none
      waiting := true }
  | .update _ _, .ok _ => { r with enforced := some true, waiting := true }
  | .update _ _, .error _ => { r with waiting := true }
  | .add _, _ => { r with created := true, waiting := true }
  | .arrive, _ => { r with waiting := false }

def next (r : Resolving) (op : Op) (a : Answer op) : Resolving :=
  { r.learn op a with clean := r.clean && !failed ⟨op, a⟩ }

def allows (r : Resolving) : Op → Prop
  | .find subject => subject = r.call.findSubject ∧ r.found = none
  | .info name => name = r.call.limits.name ∧ r.found.isSome = true
  | .update name limits => name = r.call.limits.name ∧ limits = r.call.limits.desired ∧
    r.found.isSome = true
  | _ => True

/-- What a call that returns has recorded. -/
def Ends (r : Resolving) (res : Except NatsError String) : Prop :=
  ∀ name, res = .ok name → r.clean = true →
    r.waiting = false ∧ (r.unresolved = true ∨ r.found = some name ∧ r.enforced.isSome = true)

end Resolving

def resolvings : Monitor Op Answer Resolving where
  next := Resolving.next
  allows := Resolving.allows

theorem after_clean (r : Resolving) (t : List (Event Op Answer)) :
    (resolvings.after r t).clean = (r.clean && t.all fun e => !failed e) := by
  induction t generalizing r with
  | nil => simp
  | cons e t ih =>
    rw [Monitor.after_cons, ih, List.all_cons, ← Bool.and_assoc]
    rfl

theorem next_call (r : Resolving) (op : Op) (a : Answer op) : (r.next op a).call = r.call := by
  cases op with
  | find subject => cases a <;> rfl
  | info name => cases a <;> rfl
  | update name limits => cases a <;> rfl
  | _ => rfl

theorem after_call (r : Resolving) (t : List (Event Op Answer)) :
    (resolvings.after r t).call = r.call := by
  induction t generalizing r with
  | nil => rfl
  | cons e t ih => rw [Monitor.after_cons, ih]; exact next_call r e.op e.answer

section Obeys

variable {α : Type} {r : Resolving}

theorem request_obeys {op : Op} {f : Answer op → Calls α} {Q : Resolving → Except NatsError α → Prop}
    (h : r.allows op) (hf : ∀ a, (f a).Obeys resolvings { r.next op a with waiting := false } Q) :
    (request op >>= f).Obeys resolvings r Q := by
  refine ⟨h, fun a => ⟨trivial, fun _ => ?_⟩⟩
  have hnext : resolvings.next (resolvings.next r op a) .arrive () =
      { r.next op a with waiting := false } := by
    simp [resolvings, Resolving.next, Resolving.learn, failed]
  rw [hnext]
  exact hf a

/-- The enforcement leaves what was found, and knows of the stream, unless a request fails. -/
theorem enforceStreamLimits_obeys {limits : StreamLimits} (hlimits : limits = r.call.limits)
    (hfound : r.found.isSome = true) :
    (enforceStreamLimits limits).Obeys resolvings r fun r' res => (∃ outcome, res = .ok outcome) ∧
      r'.found = r.found ∧ r'.waiting = false ∧ (r'.clean = true → r'.enforced.isSome = true) := by
  subst hlimits
  refine request_obeys ?_ ?_
  · exact ⟨rfl, hfound⟩
  rintro (error | config)
  · refine ⟨⟨_, rfl⟩, rfl, rfl, fun hclean => ?_⟩
    cases hmissing : isStreamNotFoundError error with
    | true => simp [Resolving.next, Resolving.learn, hmissing]
    | false => simp [Resolving.next, failed, hmissing] at hclean
  · by_cases hlimits : config.limits = r.call.limits.desired
    · simp only [hlimits, if_true]
      refine ⟨⟨_, rfl⟩, rfl, rfl, fun _ => ?_⟩
      simp [Resolving.next, Resolving.learn, hlimits]
    · simp only [hlimits, if_false]
      refine request_obeys ?_ ?_
      · exact ⟨rfl, rfl, hfound⟩
      rintro (error | ⟨⟨⟩⟩)
      · refine ⟨⟨_, rfl⟩, rfl, rfl, fun hclean => ?_⟩
        simp [Resolving.next, failed] at hclean
      · exact ⟨⟨_, rfl⟩, rfl, rfl, fun _ => rfl⟩

/-- A call that has found a stream enforces its own, and returns the one it has found. -/
theorem found_obeys {limits : StreamLimits} {name : String} (hlimits : limits = r.call.limits)
    (hfound : r.found = some name) :
    (enforceStreamLimits limits >>= fun _ => pure name : Calls String).Obeys resolvings r
      Resolving.Ends := by
  refine Program.obeys_bind.mpr ((enforceStreamLimits_obeys hlimits (by simp [hfound])).mono ?_)
  rintro r' res ⟨⟨outcome, rfl⟩, hfound', hwaiting', henforced⟩ name' hname hclean
  obtain rfl : name = name' := Except.ok.inj hname
  exact ⟨hwaiting', .inr ⟨hfound'.trans hfound, henforced hclean⟩⟩

theorem reresolve_obeys {subject : String} {limits : StreamLimits}
    (hcall : r.call = ⟨subject, limits⟩) (hfound : r.found = none) (hcreated : r.created = true) :
    (reresolve subject limits).Obeys resolvings r Resolving.Ends := by
  refine request_obeys ?_ ?_
  · exact ⟨by rw [hcall], hfound⟩
  rintro (error | name)
  · intro _ _ hclean
    refine ⟨rfl, .inl ?_⟩
    cases hmissing : isNoStreamMatchesSubjectError error with
    | true => simp [Resolving.next, Resolving.learn, hcreated, hmissing]
    | false => simp [Resolving.next, failed, hmissing] at hclean
  · exact found_obeys (by simp [next_call, hcall]) rfl

theorem resolveStreamWithLimits_obeys (call : Resolve) :
    (resolveStreamWithLimits call.findSubject call.limits).Obeys resolvings (.initial call)
      Resolving.Ends := by
  refine request_obeys ?_ ?_
  · exact ⟨rfl, rfl⟩
  rintro (error | name)
  · cases hmissing : isNoStreamMatchesSubjectError error with
    | false =>
      simp only [hmissing, Bool.not_false, if_true]
      exact nofun
    | true =>
      simp only [hmissing, Bool.not_true, Bool.false_eq_true, if_false]
      refine request_obeys ?_ ?_
      · trivial
      rintro (error' | ⟨⟨⟩⟩)
      · cases hlost : isStreamAlreadyExistsError error' with
        | false =>
          simp only [hlost, Bool.not_false, if_true]
          exact nofun
        | true =>
          simp only [hlost, Bool.not_true, Bool.false_eq_true, if_false]
          exact reresolve_obeys rfl rfl rfl
      · exact reresolve_obeys rfl rfl rfl
  · exact found_obeys rfl rfl

end Obeys

/-- What holds of a call: it has found the stream of its own name, and what it knows of the limits
of that stream is so. -/
structure Resolving.Sound (s : Streams) (r : Resolving) : Prop where
  resolved : r.unresolved = false
  found : ∀ name, r.found = some name → name = r.call.limits.name ∧ s.Has name r.call.findSubject
  present : r.enforced ≠ some false
  carries : r.enforced = some true →
    s.Carries r.call.limits.name r.call.findSubject r.call.limits.desired

section Sound

variable {s s' : Streams} {r : Resolving}

/-- Where no stream is lost, and the one of the call keeps its limits. -/
theorem Resolving.Sound.keeps (h : r.Sound s)
    (hhas : ∀ name subject, s.Has name subject → s'.Has name subject)
    (hcarries : r.enforced = some true →
      s.Carries r.call.limits.name r.call.findSubject r.call.limits.desired →
      s'.Carries r.call.limits.name r.call.findSubject r.call.limits.desired) : r.Sound s' := by
  refine ⟨h.resolved, fun name hname => ?_, h.present, fun henforced => ?_⟩
  · obtain ⟨heq, hs⟩ := h.found name hname
    exact ⟨heq, hhas _ _ hs⟩
  · exact hcarries henforced (h.carries henforced)

theorem Resolving.Sound.mono (h : r.Sound s) (hs : ∀ config ∈ s, config ∈ s') : r.Sound s' :=
  h.keeps (fun _ _ hhas => hhas.mono hs) fun _ hcarries => hcarries.mono hs

theorem Resolving.Sound.congr {r' : Resolving} (h : r.Sound s) (hcall : r'.call = r.call)
    (hunresolved : r'.unresolved = r.unresolved) (hfound : r'.found = r.found)
    (henforced : r'.enforced = r.enforced) : r'.Sound s := by
  refine ⟨hunresolved.trans h.resolved, fun name hname => ?_, henforced ▸ h.present, fun hsome => ?_⟩
  · rw [hcall]
    exact h.found name (hfound ▸ hname)
  · rw [hcall]
    exact h.carries (henforced ▸ hsome)

end Sound

variable {ι : Type} [DecidableEq ι]

/-- When a call looks its subject up, the stream that owns it, if any, is the one of the call's own
name, and after a creation there is one. While a call that has enforced its limits has not finished,
no other call sets other limits for the stream. -/
def InOrder (s : Streams) (f : ι → Option Resolving) : Label ι Op Answer Resolve → Prop
  | .call i ⟨.find subject, _⟩ => ∀ r, f i = some r →
      (∀ config ∈ s, config.owns subject = true → config.name = r.call.limits.name) ∧
        (r.created = true → ∃ config ∈ s, config.owns subject = true)
  | .call _ ⟨.update name limits, _⟩ => ∀ j r, f j = some r → r.enforced = some true →
      r.call.limits.name = name → r.call.limits.desired = limits
  | _ => True

structure Provisioning (s : Streams) (f : ι → Option Resolving) : Prop where
  separate : s.Separate
  sound : ∀ i r, f i = some r → r.Sound s

section Moves

variable {s s' : Streams} {f f' : ι → Option Resolving} {i : ι} {r : Resolving}

omit [DecidableEq ι] in
theorem Provisioning.next_sound (h : Provisioning s f) {op : Op} {a : Answer op} (hi : f i = some r)
    (hallows : r.allows op) (hperform : s.Performs op a s')
    (hok : InOrder s f (.call i ⟨op, a⟩)) (hr' : r.Sound s') : (r.next op a).Sound s' := by
  have hr := h.sound i r hi
  cases op with
  | find subject =>
    obtain ⟨rfl, hfound⟩ := hallows
    obtain ⟨hname, hexists⟩ := hok r hi
    rcases a with error | name
    · obtain ⟨hmissing, rfl⟩ := hperform
      refine ⟨?_, hr.found, hr.present, hr.carries⟩
      cases hcreated : r.created with
      | false => simp [Resolving.next, Resolving.learn, hcreated]
      | true =>
        obtain ⟨config, hmem, howns⟩ := hexists hcreated
        cases herror : isNoStreamMatchesSubjectError error with
        | false => simp [Resolving.next, Resolving.learn, herror]
        | true => exact absurd (congrArg List.length (h.separate.owners_eq hmem howns)) (hmissing herror)
    · obtain ⟨⟨config, howners, rfl⟩, rfl⟩ := hperform
      obtain ⟨hmem, howns⟩ := Streams.mem_of_owners howners
      refine ⟨hr.resolved, ?_, hr.present, hr.carries⟩
      rintro name ⟨⟩
      exact ⟨hname config hmem howns, config, hmem, rfl, howns⟩
  | info name =>
    obtain ⟨rfl, hfound⟩ := hallows
    obtain ⟨name, hname⟩ := Option.isSome_iff_exists.mp hfound
    obtain ⟨rfl, config', hmem', hname', howns⟩ := hr.found name hname
    rcases a with error | config
    · obtain ⟨hmissing, rfl⟩ := hperform
      refine ⟨hr.resolved, hr.found, ?_, ?_⟩
      · cases herror : isStreamNotFoundError error with
        | false => simp [Resolving.next, Resolving.learn, herror]
        | true => exact absurd hname' (hmissing herror config' hmem')
      · cases herror : isStreamNotFoundError error <;>
          simp [Resolving.next, Resolving.learn, herror]
    · obtain ⟨hmem, hsame, rfl⟩ := hperform
      obtain rfl := h.separate.eq_of_name hmem hmem' (hsame.trans hname'.symm)
      refine ⟨hr.resolved, hr.found, ?_, fun henforced => ?_⟩
      · by_cases hlimits : config.limits = r.call.limits.desired <;>
          simp [Resolving.next, Resolving.learn, hlimits]
      · by_cases hlimits : config.limits = r.call.limits.desired
        · exact ⟨config, hmem, hsame, howns, hlimits⟩
        · simp [Resolving.next, Resolving.learn, hlimits] at henforced
  | update name limits =>
    obtain ⟨rfl, rfl, hfound⟩ := hallows
    rcases a with error | ⟨⟨⟩⟩
    · exact hr'.congr rfl rfl rfl rfl
    · obtain ⟨-, rfl⟩ := hperform
      obtain ⟨name, hname⟩ := Option.isSome_iff_exists.mp hfound
      obtain ⟨rfl, hhas⟩ := hr.found name hname
      exact ⟨hr'.resolved, hr'.found, nofun, fun _ => hhas.carries_setLimits _⟩
  | add config => exact hr'.congr rfl rfl rfl rfl
  | arrive => exact hr'.congr rfl rfl rfl rfl

/-- What a request does to the streams: nothing, other limits for one, or one stream more. -/
theorem performs_cases {op : Op} {a : Answer op} (h : s.Performs op a s') :
    s' = s ∨ (∃ name limits, op = .update name limits ∧ s' = s.setLimits name limits) ∨
      ∃ config, s.Adds config s' := by
  cases op with
  | find subject => rcases a with error | name <;> exact .inl h.2
  | info name =>
    rcases a with error | config
    · exact .inl h.2
    · exact .inl h.2.2
  | update name limits =>
    rcases a with error | ⟨⟨⟩⟩
    · exact h.imp_right fun hs => .inl ⟨name, limits, rfl, hs⟩
    · exact .inr (.inl ⟨name, limits, rfl, h.2⟩)
  | add config =>
    rcases a with error | ⟨⟨⟩⟩
    · rcases h with ⟨-, -, hs⟩ | ⟨-, hs | hs⟩
      · exact .inl hs
      · exact .inl hs
      · exact .inr (.inr ⟨config, hs⟩)
    · rcases h with hs | ⟨-, hs⟩
      · exact .inr (.inr ⟨config, hs⟩)
      · exact .inl hs
  | arrive => exact .inl h

omit [DecidableEq ι] in
theorem Provisioning.others (h : Provisioning s f) {op : Op} {a : Answer op}
    (hperform : s.Performs op a s') (hok : InOrder s f (.call i ⟨op, a⟩)) :
    s'.Separate ∧ ∀ j r, f j = some r → r.Sound s' := by
  rcases performs_cases hperform with rfl | ⟨name, limits, rfl, rfl⟩ | ⟨config, rfl, hs⟩
  · exact ⟨h.separate, h.sound⟩
  · refine ⟨h.separate.setLimits name limits, fun j r hj => (h.sound j r hj).keeps ?_ ?_⟩
    · exact fun _ _ hhas => hhas.setLimits name limits
    · exact fun henforced hcarries => hcarries.setLimits (hok j r hj henforced)
  · exact ⟨hs, fun j r hj => (h.sound j r hj).mono fun _ => List.mem_cons_of_mem _⟩

theorem Provisioning.update (h : ∀ j r, f j = some r → r.Sound s) (hs : s.Separate)
    {x : Option Resolving} (hx : ∀ r, x = some r → r.Sound s) :
    Provisioning s (Function.update f i x) := by
  refine ⟨hs, fun j r hj => ?_⟩
  rcases update_eq_some.mp hj with ⟨-, hr⟩ | ⟨-, hj⟩
  · exact hx r hr
  · exact h j r hj

theorem Provisioning.move (h : Provisioning s f) {l : Label ι Op Answer Resolve}
    (hok : InOrder s f l) (hmove : resolvers.LiveMove resolvings Resolving.initial s f l s' f') :
    Provisioning s' f' := by
  cases hmove with
  | start call hi hx =>
    refine Provisioning.update h.sound h.separate fun r hr => ?_
    rcases hx with rfl | rfl
    · cases hr
    · obtain rfl := Option.some.inj hr
      exact ⟨rfl, nofun, nofun, nofun⟩
  | call hi hallows hperform hx =>
    obtain ⟨hs, hothers⟩ := h.others hperform hok
    refine Provisioning.update hothers hs fun r hr => ?_
    rcases hx with rfl | rfl
    · cases hr
    · obtain rfl := Option.some.inj hr
      exact h.next_sound hi hallows hperform hok (hothers _ _ hi)
  | crash hi => exact Provisioning.update h.sound h.separate nofun
  | background hadds =>
    obtain ⟨config, rfl, hs⟩ := hadds
    exact ⟨hs, fun j r hj => (h.sound j r hj).mono fun _ => List.mem_cons_of_mem _⟩

end Moves

section Main

variable {start : Streams} {c c' : Config ι Op Answer NatsError String Resolve Streams}
  {l : Label ι Op Answer Resolve} {i : ι} {call : Resolve} {name : String}

/-- A call, none of whose requests has failed, finishes in a step, and returns a name. -/
def Finishes (c c' : Config ι Op Answer NatsError String Resolve Streams) (i : ι) (call : Resolve)
    (name : String) : Prop :=
  ∃ t op resume t', c.process i = some ⟨call, t, .call op resume⟩ ∧
    c'.process i = some ⟨call, t', .done (.ok name)⟩ ∧ t'.all (fun e => !failed e) = true

theorem provisioning_of_reaches (hstart : start.Separate)
    (h : resolvers.Reaches
      (fun c l => InOrder c.shared (c.live resolvings Resolving.initial) l) (.initial start) c) :
    Provisioning c.shared (c.live resolvings Resolving.initial) :=
  h.live_invariant InOrder Provisioning resolveStreamWithLimits_obeys ⟨hstart, nofun⟩
    fun _ _ _ _ _ hP hok hmove => hP.move hok hmove

theorem next_waiting {r : Resolving} {op : Op} {a : Answer op} (h : (r.next op a).waiting = false) :
    op = .arrive := by
  cases op with
  | find subject => cases a <;> cases h
  | info name => cases a <;> cases h
  | update name limits => cases a <;> cases h
  | add config => cases h
  | arrive => rfl

/-- What finishes is the arrival of an answer, by which the call has found its own stream and knows
its limits. -/
theorem finishes_provisioned (hstart : start.Separate)
    (h : resolvers.Reaches
      (fun c l => InOrder c.shared (c.live resolvings Resolving.initial) l) (.initial start) c)
    (hs : resolvers.Step c l c') (hfinishes : Finishes c c' i call name) :
    c'.shared.Carries name call.findSubject call.limits.desired := by
  obtain ⟨t, op, resume, t', hi, hi', hclean⟩ := hfinishes
  have hsame : c'.process i ≠ c.process i := by simp [hi, hi']
  cases hs with
  | @start j job hj =>
    by_cases hij : i = j
    · subst hij
      simp [hi] at hj
    · exact absurd (Config.put_ne c hij _) hsame
  | @crash j job t₁ op₁ resume₁ hj =>
    by_cases hij : i = j
    · subst hij
      simp at hi'
    · exact absurd (Config.put_ne c hij _) hsame
  | background => exact absurd rfl hsame
  | @call j job t₁ op₁ resume₁ a s hj hperform =>
    by_cases hij : i = j
    swap
    · exact absurd (Config.put_ne _ hij _) hsame
    subst hij
    obtain ⟨rfl, rfl, hprogram⟩ := Process.mk.inj (Option.some.inj (hi.symm.trans hj))
    cases hprogram
    rw [Config.put_self] at hi'
    obtain ⟨-, rfl, hdone⟩ := Process.mk.inj (Option.some.inj hi')
    have hobeys := (h.obeys resolveStreamWithLimits_obeys hi).2 a
    rw [hdone] at hobeys
    have hrecord : (resolvings.after (.initial call) (t ++ [⟨op, a⟩])).clean = true := by
      rw [after_clean]
      exact hclean
    rw [Monitor.after_append] at hrecord
    obtain ⟨hwaiting, hfound⟩ := hobeys name rfl hrecord
    obtain rfl := next_waiting hwaiting
    obtain rfl : s = c.shared := hperform
    have hsound := (provisioning_of_reaches hstart h).sound i _ (Config.live_call hi)
    rcases hfound with hunresolved | ⟨hfound, henforced⟩
    · cases hsound.resolved.symm.trans hunresolved
    · obtain ⟨hname, -⟩ := hsound.found name hfound
      obtain ⟨present, hpresent⟩ := Option.isSome_iff_exists.mp henforced
      cases present with
      | false => exact absurd hpresent hsound.present
      | true =>
        have hcarries := hsound.carries hpresent
        rw [← hname, after_call] at hcarries
        exact hcarries

end Main

section Sample

/-- A server that answers what is asked of it, and creates nothing. -/
def Streams.respond (s : Streams) : (op : Op) → Answer op × Streams
  | .find subject => match s.owners subject with
    | [config] => (.ok config.name, s)
    | _ => (.error ⟨some "no stream matches subject"⟩, s)
  | .info name => match s.find? fun config => config.name = name with
    | some config => (.ok config, s)
    | none => (.error ⟨some "stream not found"⟩, s)
  | .update name limits =>
    if s.any fun config => config.name = name then (.ok (), s.setLimits name limits)
    else (.error ⟨none⟩, s)
  | .add _ => (.error ⟨none⟩, s)
  | .arrive => ((), s)

theorem Streams.performs_respond (s : Streams) (op : Op) :
    s.Performs op (s.respond op).1 (s.respond op).2 := by
  cases op with
  | find subject =>
    simp only [respond]
    split
    · rename_i config howners
      exact ⟨⟨config, howners, rfl⟩, rfl⟩
    · rename_i hother
      refine ⟨fun _ hone => ?_, rfl⟩
      obtain ⟨config, hconfig⟩ := List.length_eq_one_iff.mp hone
      exact hother config hconfig
  | info name =>
    simp only [respond]
    split
    · rename_i config hconfig
      exact ⟨List.mem_of_find?_eq_some hconfig, by simpa using List.find?_some hconfig, rfl⟩
    · rename_i hnone
      refine ⟨fun _ config hmem => ?_, rfl⟩
      simpa using List.find?_eq_none.mp hnone config hmem
  | update name limits =>
    simp only [respond]
    split
    · rename_i hany
      exact ⟨by simpa using hany, rfl⟩
    · exact .inl rfl
  | add config => exact .inr ⟨rfl, .inl rfl⟩
  | arrive => rfl

def sampleResolve : Resolve := ⟨"audit.transfers", ⟨"PIVOTAL_AUDIT", "audit.>", 172800000, none⟩⟩

/-- A stream of all audit events, with a name and limits. -/
def auditStream (name : String) (limits : Limits) : StreamConfig :=
  ⟨name, ["audit.>"], .limits, .file, limits⟩

def sampleStarted (start : Streams) : Config ℕ Op Answer NatsError String Resolve Streams :=
  (Config.initial start).put 0 (some ⟨sampleResolve, [], resolvers.entry sampleResolve⟩)

/-- The subject has been looked up. -/
def sampleFound (start : Streams) : Config ℕ Op Answer NatsError String Resolve Streams :=
  (sampleStarted start).advance Streams.respond 0 1

/-- The stream of the name has been inspected, and the answer is on its way. -/
def sampleInspected (start : Streams) : Config ℕ Op Answer NatsError String Resolve Streams :=
  (sampleFound start).advance Streams.respond 0 2

def sampleFinished (start : Streams) : Config ℕ Op Answer NatsError String Resolve Streams :=
  (sampleInspected start).advance Streams.respond 0 1

theorem sample_step_finish {start : Streams}
    (h : ((sampleInspected start).process 0).bind (fun p => p.program.awaits) = some .arrive) :
    resolvers.Step (sampleInspected start) (.call 0 ⟨.arrive, ()⟩) (sampleFinished start) :=
  System.step_advance Streams.performs_respond Op.arrive h

abbrev Resolvers : Type := Config Bool Op Answer NatsError String Resolve Streams

/-- What may be asked of streams whose subjects are those of the sample's stream. -/
def admits (s : Streams) : Op → Bool
  | .find subject => s.any (fun config => config.owns subject) &&
      s.all fun config => !config.owns subject || config.name = sampleResolve.limits.name
  | .update _ limits => limits = sampleResolve.limits.desired
  | _ => true

/-- All calls are for the limits of the sample, and the one whose turn it is asks what it may. -/
def Admitted (c : Resolvers) (i : Bool) : Prop :=
  (∀ j, (c.process j).all (fun p => p.job.limits = sampleResolve.limits) = true) ∧
    ((c.process i).bind fun p => p.program.awaits).all (admits c.shared) = true

instance (c : Resolvers) (i : Bool) : Decidable (Admitted c i) := instDecidableAnd

theorem call_limits {c : Resolvers} {i : Bool} (h : Admitted c i) {j : Bool} {r : Resolving}
    (hj : c.live resolvings Resolving.initial j = some r) :
    r.call.limits = sampleResolve.limits := by
  obtain ⟨job, t, op, resume, hp, rfl⟩ := Config.live_eq_some hj
  have hlimits := h.1 j
  rw [hp, Option.all_some, decide_eq_true_eq] at hlimits
  rw [after_call]
  exact hlimits

theorem inOrder_of_admitted {c : Resolvers} {i : Bool} (h : Admitted c i) {op : Op}
    (hop : (c.process i).bind (fun p => p.program.awaits) = some op) (a : Answer op) :
    InOrder c.shared (c.live resolvings Resolving.initial) (.call i ⟨op, a⟩) := by
  have hadmits := h.2
  rw [hop, Option.all_some] at hadmits
  cases op with
  | find subject =>
    simp only [admits, Bool.and_eq_true, List.any_eq_true, List.all_eq_true] at hadmits
    intro r hr
    rw [call_limits h hr]
    refine ⟨fun config hmem howns => ?_, fun _ => hadmits.1⟩
    simpa [howns] using hadmits.2 config hmem
  | update name limits =>
    intro j r hj _ _
    rw [call_limits h hj]
    exact (of_decide_eq_true hadmits).symm
  | _ => trivial

abbrev SampleReached (c : Resolvers) : Prop :=
  resolvers.Reaches (fun c l => InOrder c.shared (c.live resolvings Resolving.initial) l)
    (.initial [auditStream "PIVOTAL_AUDIT" ⟨0, -1, .old⟩]) c

theorem reached_advance {c : Resolvers} (h : SampleReached c) (i : Bool) (n : ℕ)
    (hadmitted : ∀ k < n, Admitted (c.advance Streams.respond i k) i) :
    SampleReached (c.advance Streams.respond i n) :=
  h.advanceEach i Streams.performs_respond n fun k hk _ hop =>
    inOrder_of_admitted (hadmitted k hk) hop _

/-- The call of another subject of the stream. -/
def sampleOther : Resolve := ⟨"audit.quotes", sampleResolve.limits⟩

/-- Two callers have inspected the stream, which has no limits. -/
def sampleBothInspected : Resolvers :=
  ((((Config.initial [auditStream "PIVOTAL_AUDIT" ⟨0, -1, .old⟩]).put false
    (some ⟨sampleResolve, [], resolvers.entry sampleResolve⟩)).put true
    (some ⟨sampleOther, [], resolvers.entry sampleOther⟩)).advance Streams.respond false 4).advance
    Streams.respond true 4

/-- Both have set its limits, and the answer of the first one is on its way. -/
def sampleBothCorrected : Resolvers :=
  (sampleBothInspected.advance Streams.respond true 2).advance Streams.respond false 1

theorem sampleBothCorrected_reached : SampleReached sampleBothCorrected := by
  have hstarted : SampleReached (((Config.initial _).put false
      (some ⟨sampleResolve, [], resolvers.entry sampleResolve⟩)).put true
      (some ⟨sampleOther, [], resolvers.entry sampleOther⟩)) :=
    (System.Reaches.refl.tail (l := .start false sampleResolve) trivial
      (.start sampleResolve rfl)).tail (l := .start true sampleOther) trivial
      (.start sampleOther rfl)
  have hinspected : SampleReached sampleBothInspected :=
    reached_advance (reached_advance hstarted false 4 (by decide +kernel)) true 4
      (by decide +kernel)
  exact reached_advance (reached_advance hinspected true 2 (by decide +kernel)) false 1
    (by decide +kernel)

/-- A stream of the calls' name that is not in sync, corrected by both of them. -/
theorem finishes_provisioned_sample :
    Finishes sampleBothCorrected (sampleBothCorrected.advance Streams.respond false 1) false
      sampleResolve "PIVOTAL_AUDIT" ∧
    (sampleBothCorrected.advance Streams.respond false 1).shared.Carries "PIVOTAL_AUDIT"
      "audit.transfers" sampleResolve.limits.desired := by
  have hfinishes : Finishes sampleBothCorrected
      (sampleBothCorrected.advance Streams.respond false 1) false sampleResolve
      "PIVOTAL_AUDIT" := ⟨_, _, _, _, rfl, rfl, by decide +kernel⟩
  exact ⟨hfinishes, finishes_provisioned (List.pairwise_singleton _ _)
    sampleBothCorrected_reached (System.step_advance Streams.performs_respond Op.arrive rfl)
    hfinishes⟩

/-- A connector that booted first has created the stream of the subject, without limits and with a
name of its own. -/
def connectorStreams : Streams := [auditStream "CONNECTOR_AUDIT" ⟨0, -1, .old⟩]

/-- Its name is returned, and it is left without limits. -/
theorem not_finishes_provisioned :
    ¬ ∀ (start : Streams) (c c' : Config ℕ Op Answer NatsError String Resolve Streams)
      (l : Label ℕ Op Answer Resolve) (i : ℕ) (call : Resolve) (name : String), start.Separate →
      resolvers.Reaches System.Any (.initial start) c → resolvers.Step c l c' →
      Finishes c c' i call name →
      c'.shared.Carries name call.findSubject call.limits.desired := by
  intro hall
  have hreached : resolvers.Reaches System.Any (.initial connectorStreams)
      (sampleInspected connectorStreams) :=
    ((System.Reaches.refl.tail trivial (.start sampleResolve rfl)).advance
      Streams.performs_respond 0 1).advance Streams.performs_respond 0 2
  have hfinishes : Finishes (sampleInspected connectorStreams) (sampleFinished connectorStreams) 0
      sampleResolve "CONNECTOR_AUDIT" := ⟨_, _, _, _, rfl, rfl, by decide +kernel⟩
  obtain ⟨config, hmem, -, -, hlimits⟩ := hall connectorStreams _ _ _ 0 sampleResolve _
    (List.pairwise_singleton _ _) hreached (sample_step_finish rfl) hfinishes
  obtain rfl := List.mem_singleton.mp hmem
  exact absurd hlimits (by decide)

end Sample
end Nats
