import HotSwap.Proofs.Requests.Outcome
import HotSwap.Proofs.Triggers.Traffic

/-!
# The delivery of requests

Every request that a channel accepts leads to one reload, and no other reload begins in its name.
Whatever becomes of the reloads, the listener goes on until there are no senders and no requests.
-/

namespace HotSwap

namespace Server

variable {s t : Server} {id : ChannelId} {ch : Channel} {act : Action} {l c : CallId}
  {actions : List Action}

/-! ## What a step is to a channel -/

/-- What a listener at the channel does when it is let on. -/
inductive Listens (s : Server) (id : ChannelId) (ch : Channel) (l : CallId) : Server → Prop
  | waits (served : ch.pending = 0) (sent : 0 < ch.senders) : Listens s id ch l s
  | serves {t : Server} (waiting : 0 < ch.pending)
      (after : t.traffic id = ⟨some { ch with pending := ch.pending - 1 }, s.fresh :: s.served id⟩)
      (begins : t.standing =
        s.standing.begin (.reload (.trigger channelName (some id)) .arriving)) :
      Listens s id ch l t
  | ends {t : Server} (served : ch.pending = 0) (unsent : ch.senders = 0)
      (after : t.traffic id = ⟨some ch.closed, s.served id⟩)
      (ended : t.standing = s.standing.finish l .done) : Listens s id ch l t

theorem listens_proceed (active : s.activity? l = some (.listener (.channel id)))
    (there : s.channel? id = some ch) : s.Listens id ch l (s.step (.proceed l)) := by
  by_cases waiting : 0 < ch.pending
  · have free : ¬ s.Waits l (.listener (.channel id)) := by
      rintro ⟨other, same, served, -⟩
      cases there.symm.trans same
      omega
    have goes : s.step (.proceed l) =
        (s.updateChannel id fun ch => { ch with pending := ch.pending - 1 }).begin
          (.reload (.trigger channelName (some id)) .arriving) := by
      rw [step_proceed active rfl free]
      simp only [Server.act, listenStep, receive, there, if_pos waiting]
    rw [goes]
    refine .serves waiting ?_ (by simp)
    rw [traffic_begin_own _ id rfl, channel?_updateChannel, if_pos rfl, there]
    rfl
  · have served : ch.pending = 0 := by omega
    by_cases sent : 0 < ch.senders
    · have waits : s.Waits l (.listener (.channel id)) := ⟨ch, there, served, sent⟩
      have stands : s.step (.proceed l) = s := by
        simp only [step, proceed, active, Activity.gate?, Activity.retirement?, if_pos waits]
      rw [stands]
      exact .waits served sent
    · have free : ¬ s.Waits l (.listener (.channel id)) := by
        rintro ⟨other, same, -, sent'⟩
        cases there.symm.trans same
        exact sent sent'
      have goes : s.step (.proceed l) = (s.close (.channel id)).finish l .done := by
        rw [step_proceed active rfl free]
        simp only [Server.act, listenStep, receive, there, if_neg waiting]
      rw [goes]
      refine .ends served (by omega) ?_ (by simp)
      rw [traffic_finish, traffic_close_own, there]
      rfl

/-- What a step is to a channel. -/
inductive Passes (s : Server) (id : ChannelId) : Action → Server → Prop
  | still {act : Action} {t : Server} (same : t.traffic id = s.traffic id)
      (refused : act = .send id → ¬ s.Accepts id) : Passes s id act t
  | opens {t : Server} (new : s.fresh = id) (unknown : s.channel? id = none)
      (after : t.traffic id = ⟨some ⟨0, 1, true⟩, s.served id⟩) : Passes s id .openChannel t
  | sends {t : Server} {ch : Channel} (there : s.channel? id = some ch) (received : ch.received)
      (after : t.traffic id = ⟨some { ch with pending := ch.pending + 1 }, s.served id⟩) :
      Passes s id (.send id) t
  | senders {act : Action} {t : Server} {ch : Channel} {n : Nat} (other : act ≠ .send id)
      (there : s.channel? id = some ch)
      (after : t.traffic id = ⟨some { ch with senders := n }, s.served id⟩) : Passes s id act t
  | listens {t : Server} {ch : Channel} {l : CallId} (there : s.channel? id = some ch)
      (active : s.activity? l = some (.listener (.channel id))) (does : s.Listens id ch l t) :
      Passes s id (.proceed l) t
  | cut {t : Server} {ch : Channel} {l : CallId} (there : s.channel? id = some ch)
      (active : s.activity? l = some (.listener (.channel id)))
      (after : t.traffic id = ⟨some ch.closed, s.served id⟩) : Passes s id (.cancel l) t
  | drops {t : Server} {ch : Channel} (there : s.channel? id = some ch)
      (unheard : s.listeners (.channel id) = [])
      (after : t.traffic id = ⟨some ch.closed, s.served id⟩) : Passes s id (.dropReceiver id) t

theorem channel?_of_demanded? {d : Demand} {a : Activity} (demanded : s.demanded? d = some a) :
    a.channel? = none := by
  cases d with
  | execution name input =>
    obtain ⟨i, -, rfl⟩ := Option.map_eq_some_iff.mp demanded
    rfl
  | _ =>
    cases demanded
    rfl

theorem passes_proceed (s : Server) (id : ChannelId) (c : CallId) :
    s.Passes id (.proceed c) (s.step (.proceed c)) := by
  cases active : s.activity? c with
  | none =>
    simp only [step, proceed, active]
    exact .still rfl (by rintro ⟨⟩)
  | some a =>
    by_cases listening : a = .listener (.channel id)
    · subst listening
      cases there : s.channel? id with
      | none =>
        have free : ¬ s.Waits c (.listener (.channel id)) := by
          rintro ⟨other, same, -⟩
          cases there.symm.trans same
        rw [step_proceed active rfl free]
        simp only [Server.act, listenStep, receive, there]
        exact .still (s.traffic_finish id c .done) (by rintro ⟨⟩)
      | some ch => exact .listens there active (listens_proceed active there)
    · refine .still ?_ (by rintro ⟨⟩)
      simp only [step, proceed, active]
      split
      · split
        · rfl
        · exact s.traffic_act id c listening
      · split
        · exact traffic_act _ id c listening
        · rfl

theorem passes_cancel (s : Server) (id : ChannelId) (c : CallId) :
    s.Passes id (.cancel c) (s.step (.cancel c)) := by
  cases active : s.activity? c with
  | none =>
    simp only [step, cancel, active]
    exact .still rfl (by rintro ⟨⟩)
  | some a =>
    by_cases listening : a = .listener (.channel id)
    · subst listening
      have goes : s.step (.cancel c) = (s.close (.channel id)).finish c .cancelled := by
        simp only [step, cancel, active, Activity.gate?, Activity.retirement?, stopListening]
      have closed : (s.step (.cancel c)).traffic id =
          ⟨(s.channel? id).map Channel.closed, s.served id⟩ := by
        rw [goes, traffic_finish, traffic_close_own]
      cases there : s.channel? id with
      | none =>
        rw [there] at closed
        refine .still (closed.trans ?_) (by rintro ⟨⟩)
        rw [traffic, there]
        rfl
      | some ch =>
        rw [there] at closed
        exact .cut there active closed
    · refine .still ?_ (by rintro ⟨⟩)
      simp only [step, cancel, active, traffic_finish]
      rw [traffic_stopListening _ id listening]
      split
      · simp
      · rfl

/-- Senders come and go. -/
theorem passes_updateSenders (j : ChannelId) (other : act ≠ .send id)
    (f : Nat → Nat)
    (after : t.traffic id =
      (s.updateChannel j fun ch => { ch with senders := f ch.senders }).traffic id) :
    s.Passes id act t := by
  by_cases here : j = id
  · subst here
    rw [traffic_updateChannel] at after
    cases there : s.channel? j with
    | none =>
      rw [there] at after
      refine .still (after.trans ?_) fun sends => absurd sends other
      rw [traffic, there]
      rfl
    | some ch =>
      rw [there] at after
      exact .senders other there after
  · rw [s.traffic_updateChannel_of_ne id here] at after
    exact .still after fun sends => absurd sends other

theorem passes_dropReceiver (s : Server) (id j : ChannelId) :
    s.Passes id (.dropReceiver j) (s.step (.dropReceiver j)) := by
  simp only [step, dropReceiver]
  split
  · next unheard =>
    by_cases here : j = id
    · subst here
      have closed := s.traffic_close_own j
      cases there : s.channel? j with
      | none =>
        rw [there] at closed
        refine .still (closed.trans ?_) (by rintro ⟨⟩)
        rw [traffic, there]
        rfl
      | some ch =>
        rw [there] at closed
        exact .drops there unheard closed
    · have apart : (.channel j : Source) ≠ .channel id := fun same => here (Source.channel.inj same)
      exact .still (s.traffic_close id apart) (by rintro ⟨⟩)
  · exact .still rfl (by rintro ⟨⟩)

theorem passes_step (s : Server) (id : ChannelId) (act : Action) :
    s.Passes id act (s.step act) := by
  cases act with
  | proceed c => exact s.passes_proceed id c
  | cancel c => exact s.passes_cancel id c
  | demand d =>
    refine .still ?_ (by rintro ⟨⟩)
    simp only [step, demand]
    split
    · next a demanded =>
      exact s.traffic_begin id (by simp [channel?_of_demanded? demanded])
    · rfl
  | openChannel =>
    cases there : s.channel? id with
    | some ch => exact .still (s.traffic_openChannel_of_some id there) (by rintro ⟨⟩)
    | none =>
      by_cases new : s.fresh = id
      · subst new
        exact .opens rfl there (s.traffic_openChannel there)
      · exact .still (s.traffic_openChannel_of_ne id new) (by rintro ⟨⟩)
  | send j =>
    by_cases accepts : s.Accepts j
    · have goes : (s.step (.send j)).traffic id =
          (s.updateChannel j fun ch => { ch with pending := ch.pending + 1 }).traffic id := by
        simp only [step, send, if_pos accepts, traffic_wakeListeners]
      by_cases here : j = id
      · subst here
        obtain ⟨ch, there, received⟩ := accepts
        refine .sends there received (goes.trans ?_)
        rw [traffic_updateChannel, there]
        rfl
      · refine .still (goes.trans (s.traffic_updateChannel_of_ne id here _)) ?_
        rintro ⟨⟩
        exact absurd rfl here
    · have stands : s.step (.send j) = s := if_neg accepts
      rw [stands]
      refine .still rfl ?_
      rintro ⟨⟩
      exact accepts
  | addSender j => exact passes_updateSenders j (by rintro ⟨⟩) (· + 1) rfl
  | dropSender j =>
    exact passes_updateSenders j (by rintro ⟨⟩) (· - 1) (traffic_wakeListeners _ id (.channel j))
  | dropReceiver j => exact s.passes_dropReceiver id j
  | elapse | permit | hangUp =>
    refine .still ?_ (by rintro ⟨⟩)
    simp only [step, elapse, permit, hangUp, traffic_wakeAll, traffic_wakeListeners]
    rfl
  | keep name =>
    refine .still ?_ (by rintro ⟨⟩)
    simp only [step, keep]
    split <;> rfl
  | letGo => exact .still rfl (by rintro ⟨⟩)

theorem channel?_traffic {channel : Option Channel} {served : List CallId}
    (after : t.traffic id = ⟨channel, served⟩) : t.channel? id = channel :=
  congrArg Traffic.channel after

theorem served_traffic {channel : Option Channel} {served : List CallId}
    (after : t.traffic id = ⟨channel, served⟩) : t.served id = served :=
  congrArg Traffic.served after

/-- Nothing is accepted any more once the receiving side is thrown away. -/
theorem not_accepts_dropReceiver (unheard : s.listeners (.channel id) = []) :
    ¬ (s.step (.dropReceiver id)).Accepts id := by
  have closed : s.step (.dropReceiver id) = s.close (.channel id) := if_pos unheard
  rw [closed]
  rintro ⟨ch, there, received⟩
  have known := channel?_traffic (s.traffic_close_own id)
  obtain ⟨before, -, rfl⟩ := Option.map_eq_some_iff.mp (known.symm.trans there)
  cases received

example : ¬ ((start Setup.patient).run [.openChannel, .dropReceiver 0]).Accepts 0 := by decide

/-- Only a listener begins reloads in the name of the channel, one at a time. -/
theorem begins_step (s : Server) (id : ChannelId) (act : Action) :
    (s.step act).served id = s.served id ∨
      (s.step act).served id = s.fresh :: s.served id ∧
        (s.step act).standing =
          s.standing.begin (.reload (.trigger channelName (some id)) .arriving) := by
  have passes := s.passes_step id act
  generalize s.step act = t at passes ⊢
  cases passes with
  | still same => exact .inl (served_traffic same)
  | opens _ _ after => exact .inl (served_traffic after)
  | sends _ _ after => exact .inl (served_traffic after)
  | senders _ _ after => exact .inl (served_traffic after)
  | cut _ _ after => exact .inl (served_traffic after)
  | drops _ _ after => exact .inl (served_traffic after)
  | listens _ _ does =>
    cases does with
    | waits => exact .inl rfl
    | serves _ after begins => exact .inr ⟨served_traffic after, begins⟩
    | ends _ _ after => exact .inl (served_traffic after)

/-! ## Requests that are accepted -/

/-- How many requests the channel accepts in a step. -/
def takes (s : Server) (id : ChannelId) : Action → Nat
  | .send j => if j = id ∧ s.Accepts id then 1 else 0
  | _ => 0

/-- How many requests the channel accepts over a run. -/
def accepted (s : Server) (id : ChannelId) : List Action → Nat
  | [] => 0
  | act :: rest => s.takes id act + (s.step act).accepted id rest

/-- How many requests wait to be received. -/
def waiting (s : Server) (id : ChannelId) : Nat := ((s.channel? id).map Channel.pending).getD 0

theorem accepted_concat (s : Server) (id : ChannelId) (actions : List Action) (act : Action) :
    s.accepted id (actions ++ [act]) = s.accepted id actions + (s.run actions).takes id act := by
  induction actions generalizing s with
  | nil => exact Nat.add_comm _ 0
  | cons first rest inductionHypothesis =>
    rw [List.cons_append, accepted, inductionHypothesis, accepted, Nat.add_assoc]
    rfl

theorem takes_of_ne (other : act ≠ .send id) : s.takes id act = 0 := by
  cases act with
  | send j =>
    refine if_neg fun accepts => ?_
    exact other (congrArg _ accepts.1)
  | _ => rfl

/-- No listener at the channel is cut off, and it is not thrown away before someone listens. -/
def Heeds (s : Server) (id : ChannelId) : Action → Prop
  | .cancel l => (s.activity? l).bind Activity.source? ≠ some (.channel id)
  | .dropReceiver j => j = id → s.listeners (.channel id) ≠ []
  | _ => True

instance decidableHeeds (s : Server) (id : ChannelId) :
    (act : Action) → Decidable (s.Heeds id act)
  | .cancel l =>
    inferInstanceAs (Decidable ((s.activity? l).bind Activity.source? ≠ some (.channel id)))
  | .dropReceiver j => inferInstanceAs (Decidable (j = id → s.listeners (.channel id) ≠ []))
  | .demand _ | .proceed _ | .elapse _ | .permit _ _ | .keep _ | .letGo _ | .openChannel
  | .send _ | .addSender _ | .dropSender _ | .hangUp => inferInstanceAs (Decidable True)

/-- The channel is kept until someone listens, and no listener is ever cut off. -/
def Heard (s : Server) (id : ChannelId) : List Action → Prop
  | [] => True
  | act :: rest => s.Heeds id act ∧ (s.step act).Heard id rest

instance decidableHeard (s : Server) (id : ChannelId) :
    (actions : List Action) → Decidable (s.Heard id actions)
  | [] => inferInstanceAs (Decidable True)
  | act :: rest =>
    have := decidableHeard (s.step act) id rest
    inferInstanceAs (Decidable (s.Heeds id act ∧ (s.step act).Heard id rest))

theorem heeds_of_heard {before after : List Action}
    (heard : s.Heard id (before ++ act :: after)) : (s.run before).Heeds id act := by
  induction before generalizing s with
  | nil => exact heard.1
  | cons first rest inductionHypothesis => exact inductionHypothesis heard.2

theorem heard_of_append {before after : List Action} (heard : s.Heard id (before ++ after)) :
    s.Heard id before := by
  induction before generalizing s with
  | nil => trivial
  | cons first rest inductionHypothesis => exact ⟨heard.1, inductionHypothesis heard.2⟩

/-- Every accepted request is served or waits, and none waits where no one listens any more. -/
def Accounts (s : Server) (id : ChannelId) (n : Nat) : Prop :=
  ∃ ch, s.channel? id = some ch ∧ (s.served id).length + ch.pending = n ∧
    (ch.received = false → ch.pending = 0)

theorem Accounts.step {n : Nat} (accounts : s.Accounts id n) (heeds : s.Heeds id act) :
    (s.step act).Accounts id (n + s.takes id act) := by
  obtain ⟨ch, there, total, closed⟩ := accounts
  have same {other : Channel} (known : s.channel? id = some other) : other = ch :=
    Option.some.inj (known.symm.trans there)
  have passes := s.passes_step id act
  generalize s.step act = t at passes ⊢
  cases passes with
  | still traffic refused =>
    have none : s.takes id act = 0 := by
      by_cases sends : act = .send id
      · rw [sends]
        exact if_neg fun accepts => refused sends accepts.2
      · exact takes_of_ne sends
    rw [none]
    refine ⟨ch, (channel?_traffic traffic).trans there, ?_, closed⟩
    rw [served_traffic traffic]
    exact total
  | opens _ unknown => cases unknown.symm.trans there
  | sends known received after =>
    cases same known
    have one : s.takes id (.send id) = 1 := if_pos ⟨rfl, ch, there, received⟩
    refine ⟨_, channel?_traffic after, ?_, fun unheard => ?_⟩
    · rw [served_traffic after, one, ← total]
      exact (Nat.add_assoc ..).symm
    · cases received.symm.trans unheard
  | senders other known after =>
    cases same known
    rw [takes_of_ne other]
    refine ⟨_, channel?_traffic after, ?_, closed⟩
    rw [served_traffic after]
    exact total
  | listens known active does =>
    cases same known
    cases does with
    | waits => exact ⟨ch, there, total, closed⟩
    | serves waiting after =>
      refine ⟨_, channel?_traffic after, ?_, fun unheard => ?_⟩
      · rw [served_traffic after, List.length_cons]
        change _ + 1 + (ch.pending - 1) = n
        omega
      · exact absurd (closed unheard) (by omega)
    | ends served _ after =>
      refine ⟨_, channel?_traffic after, ?_, fun _ => rfl⟩
      rw [served_traffic after, ← total, served]
      rfl
  | @cut _ _ l _ active =>
    have listens : (s.activity? l).bind Activity.source? = some (.channel id) :=
      congrArg (·.bind Activity.source?) active
    exact absurd listens heeds
  | drops _ unheard => exact absurd unheard (heeds rfl)

/-! ## The end of a listener -/

/-- The listener has nothing to do any more: there is no sender, and no request that waits. -/
def Idles (s : Server) (id : ChannelId) (l : CallId) : Prop :=
  s.activity? l = some (.listener (.channel id)) ∧
    ∃ ch ∈ s.channel? id, ch.pending = 0 ∧ ch.senders = 0

/-- A listener goes on, whatever else happens, until it has nothing to do or is cut off. -/
theorem listener_stays (distinct : s.standing.Distinct) (there : s.channel? id = some ch)
    (active : s.activity? l = some (.listener (.channel id))) (act : Action) :
    (s.step act).activity? l = some (.listener (.channel id)) ∨
      act = .proceed l ∧ s.Idles id l ∨ act = .cancel l := by
  by_cases proceeds : act = .proceed l
  · subst proceeds
    have moved := s.move_step (.proceed l)
    have does := listens_proceed active there
    generalize s.step (.proceed l) = t at does moved ⊢
    cases does with
    | waits => exact .inl active
    | serves _ _ begins =>
      refine .inl (activity?_of_mem (distinct.move moved) ?_)
      change _ ∈ t.standing.calls
      rw [begins]
      exact Standing.mem_calls_begin.mpr (.inl (mem_calls_of_activity? active))
    | ends served unsent => exact .inr (.inl ⟨rfl, active, ch, there, served, unsent⟩)
  · by_cases cancels : act = .cancel l
    · exact .inr (.inr cancels)
    · have known : l < s.fresh := distinct.lt_fresh _ (mem_calls_of_activity? active)
      exact .inl ((untouched_step distinct known proceeds cancels).activity.trans active)

/-- Why no one receives what is sent: a listener came to its end by itself or was cut off, or the
channel was thrown away before anyone listened. -/
inductive Gone (s : Server) (id : ChannelId) (actions : List Action) : Prop
  | idle {l : CallId} (ended : s.LetsOn actions l (·.Idles id l))
  | cut {early late : List Action} {l : CallId} (split : actions = early ++ .cancel l :: late)
      (active : (s.run early).activity? l = some (.listener (.channel id)))
  | dropped {early late : List Action} (split : actions = early ++ .dropReceiver id :: late)
      (unheard : (s.run early).listeners (.channel id) = [])

theorem Gone.later (gone : s.Gone id actions) (act : Action) : s.Gone id (actions ++ [act]) := by
  cases gone with
  | idle ended => exact .idle (ended.later act)
  | @cut early late l split active =>
    have further : actions ++ [act] = early ++ .cancel l :: (late ++ [act]) := by
      rw [split, List.append_assoc, List.cons_append]
    exact .cut further active
  | @dropped early late split unheard =>
    have further : actions ++ [act] = early ++ .dropReceiver id :: (late ++ [act]) := by
      rw [split, List.append_assoc, List.cons_append]
    exact .dropped further unheard

theorem gone_step (there : ∃ ch, (s.run actions).channel? id = some ch ∧
      (ch.received = false → s.Gone id actions)) (act : Action) :
    ∃ ch, (s.run (actions ++ [act])).channel? id = some ch ∧
      (ch.received = false → s.Gone id (actions ++ [act])) := by
  obtain ⟨ch, there, gone⟩ := there
  have same {other : Channel} (known : (s.run actions).channel? id = some other) : other = ch :=
    Option.some.inj (known.symm.trans there)
  have later (unheard : ch.received = false) : s.Gone id (actions ++ [act]) :=
    (gone unheard).later act
  have passes := (s.run actions).passes_step id act
  rw [run_concat]
  generalize (s.run actions).step act = t at passes ⊢
  cases passes with
  | still traffic => exact ⟨ch, (channel?_traffic traffic).trans there, later⟩
  | opens _ unknown => cases unknown.symm.trans there
  | sends known _ after | senders _ known after =>
    cases same known
    exact ⟨_, channel?_traffic after, later⟩
  | listens known active does =>
    cases same known
    cases does with
    | waits => exact ⟨ch, there, later⟩
    | serves _ after => exact ⟨_, channel?_traffic after, later⟩
    | ends served unsent after =>
      exact ⟨_, channel?_traffic after, fun _ => .idle (.last ⟨active, ch, there, served, unsent⟩)⟩
  | @cut _ _ l known active after =>
    have last : actions ++ [.cancel l] = actions ++ .cancel l :: [] := rfl
    exact ⟨_, channel?_traffic after, fun _ => .cut last active⟩
  | drops known unheard after =>
    have last : actions ++ [.dropReceiver id] = actions ++ .dropReceiver id :: [] := rfl
    exact ⟨_, channel?_traffic after, fun _ => .dropped last unheard⟩

end Server

end HotSwap
