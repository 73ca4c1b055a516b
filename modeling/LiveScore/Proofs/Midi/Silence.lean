import LiveScore.Midi.Output
import LiveScore.Proofs.Midi.Message
import Mathlib.Data.List.Forall2
import Mathlib.Data.List.Nodup

/-!
# Ending every note

A sink remembers the number of every message before it sends it, and sends whatever it sends on the
first channel. So what it remembers covers all that any of its connections was ever sent, however
many attempts failed and wherever they stopped the sending. Ending every note goes through the
connections in some order and sends each the same messages, one for each number remembered. It stops
at the first connection that fails, and the connections that come behind that one in the order are
left as they are.

The table of the connections has no order, so what is said of a sink is said of every order in which
its outputs may be gone through.
-/

namespace LiveScore

namespace OutputConnection

variable {connection next : OutputConnection} {messages : List MidiMessage}

/-- No attempt to send has failed. -/
def Healthy (connection : OutputConnection) : Prop :=
  ∀ attempt < connection.attempts, connection.refusal? attempt = none

instance : Decidable connection.Healthy :=
  inferInstanceAs (Decidable (∀ attempt < connection.attempts, connection.refusal? attempt = none))

/-- The connection after messages have got through. -/
def taking (connection : OutputConnection) (messages : List MidiMessage) : OutputConnection :=
  { connection with
    attempts := connection.attempts + messages.length
    sent := connection.sent ++ messages }

theorem taking_nil (connection : OutputConnection) : connection.taking [] = connection := by
  simp [taking]

theorem taking_cons (connection : OutputConnection) (message : MidiMessage)
    (rest : List MidiMessage) :
    connection.taking (message :: rest) = (connection.taking [message]).taking rest := by
  simp only [taking, List.length_cons, List.length_nil, List.append_assoc, List.singleton_append,
    mk.injEq, and_true, true_and]
  omega

/-- Either all messages get through, or those before the first attempt that fails. -/
theorem sendAll_cases (connection : OutputConnection) (messages : List MidiMessage) :
    connection.sendAll messages = (connection.taking messages, none) ∨
      ∃ through message rest reason, messages = through ++ message :: rest ∧
        connection.refusal? (connection.taking through).attempts = some reason ∧
        connection.sendAll messages =
          ({ connection.taking through with
              attempts := (connection.taking through).attempts + 1 },
            some (.sendFailed connection.name reason)) := by
  induction messages generalizing connection with
  | nil => exact Or.inl (by rw [taking_nil, sendAll])
  | cons message rest ih =>
      cases answer : connection.refusal? connection.attempts with
      | some reason =>
          right
          refine ⟨[], message, rest, reason, rfl, ?_, ?_⟩
          · rw [taking_nil, answer]
          · simp [sendAll, send, answer, taking_nil]
      | none =>
          have first : connection.sendAll (message :: rest) =
              (connection.taking [message]).sendAll rest := by
            simp [sendAll, send, answer, taking]
          rw [first]
          rcases ih (connection.taking [message]) with
            all | ⟨through, failed, behind, reason, rfl, refused, stopped⟩
          · left
            rw [all, ← taking_cons]
          · right
            rw [← taking_cons] at refused stopped
            exact ⟨message :: through, failed, behind, reason, rfl, refused, stopped⟩

theorem sendAll_of_taken (taken : (connection.sendAll messages).2 = none) :
    connection.sendAll messages = (connection.taking messages, none) := by
  rcases connection.sendAll_cases messages with all | ⟨_, _, _, _, _, _, stopped⟩
  · exact all
  · rw [stopped] at taken
    cases taken

/-- A later state of a connection: it was sent all that it had been sent before. -/
structure Extends (old new : OutputConnection) : Prop where
  name_eq : new.name = old.name
  sent_prefix : old.sent <+: new.sent

/-- A later state of a connection that was sent nothing but some of the messages in between. -/
structure Served (messages : List MidiMessage) (old new : OutputConnection) : Prop
    extends old.Extends new where
  given : ∀ message ∈ new.sent, message ∈ old.sent ∨ message ∈ messages

theorem Extends.refl (connection : OutputConnection) : connection.Extends connection :=
  ⟨rfl, List.prefix_rfl⟩

theorem Extends.trans {first second third : OutputConnection} (earlier : first.Extends second)
    (later : second.Extends third) : first.Extends third :=
  ⟨later.name_eq.trans earlier.name_eq, earlier.sent_prefix.trans later.sent_prefix⟩

theorem Served.refl (messages : List MidiMessage) (connection : OutputConnection) :
    connection.Served messages connection :=
  ⟨.refl connection, fun _ => Or.inl⟩

theorem Served.trans {first second third : OutputConnection}
    (earlier : first.Served messages second) (later : second.Served messages third) :
    first.Served messages third := by
  refine ⟨earlier.toExtends.trans later.toExtends, ?_⟩
  intro message message_mem
  rcases later.given message message_mem with before | given
  · exact earlier.given message before
  · exact Or.inr given

theorem served_sendAll (connection : OutputConnection) (messages : List MidiMessage) :
    connection.Served messages (connection.sendAll messages).1 := by
  rcases connection.sendAll_cases messages with all | ⟨through, _, _, _, rfl, _, stopped⟩
  · rw [all]
    refine ⟨⟨rfl, List.prefix_append _ _⟩, ?_⟩
    intro message message_mem
    exact List.mem_append.mp message_mem
  · rw [stopped]
    refine ⟨⟨rfl, List.prefix_append _ _⟩, ?_⟩
    intro message message_mem
    rcases List.mem_append.mp message_mem with before | got
    · exact Or.inl before
    · exact Or.inr (List.mem_append_left _ got)

/-- A connection without failed attempts has taken all messages. -/
theorem taken_of_healthy (healthy : (connection.sendAll messages).1.Healthy) :
    (connection.sendAll messages).2 = none := by
  rcases connection.sendAll_cases messages with all | ⟨through, _, _, reason, _, refused, stopped⟩
  · rw [all]
  · rw [stopped] at healthy
    have noReason := healthy (connection.taking through).attempts (Nat.lt_succ_self _)
    cases refused.symm.trans noReason

variable {first second third : List OutputConnection}

theorem exists_served_of_mem (served : List.Forall₂ (Served messages) first second)
    (next_mem : next ∈ second) : ∃ old ∈ first, old.Served messages next := by
  induction served with
  | nil => cases next_mem
  | cons head _ ih =>
      rcases List.mem_cons.mp next_mem with rfl | later
      · exact ⟨_, List.mem_cons_self, head⟩
      · rcases ih later with ⟨old, old_mem, oldServed⟩
        exact ⟨old, List.mem_cons_of_mem _ old_mem, oldServed⟩

theorem forall₂_trans {relation : OutputConnection → OutputConnection → Prop}
    (trans : ∀ {old between new}, relation old between → relation between new → relation old new)
    (earlier : List.Forall₂ relation first second) (later : List.Forall₂ relation second third) :
    List.Forall₂ relation first third := by
  induction earlier generalizing third with
  | nil => exact later
  | cons head _ ih =>
      cases later with
      | cons next rest => exact .cons (trans head next) (ih rest)

theorem map_name_eq (extended : List.Forall₂ Extends first second) :
    second.map name = first.map name := by
  induction extended with
  | nil => rfl
  | cons head _ ih => rw [List.map_cons, List.map_cons, head.name_eq, ih]

end OutputConnection

/-- Something asked of a sink, with the order in which it goes through its outputs at the time. -/
inductive OutputRequest where
  | deliver (order : List String) (delivery : Delivery)
  | allNotesOff (order : List String)

namespace OutputSink

open MidiMessage

variable {sink : OutputSink} {connections : List OutputConnection} {messages : List MidiMessage}
  {order earlier later : List String} {name : String}

/-- What a sink makes of a request. -/
def answer (sink : OutputSink) : OutputRequest → OutputSink × Except OutputError Unit
  | .deliver order delivery => sink.deliver order delivery
  | .allNotesOff order => sink.allNotesOff order

/-- The sink after requests made in order, whatever it answers. -/
def after (sink : OutputSink) (requests : List OutputRequest) : OutputSink :=
  requests.foldl (fun sink request => (sink.answer request).1) sink

/-- Nothing was asked of the sink yet. -/
structure Fresh (sink : OutputSink) : Prop where
  names_nodup : sink.outputNames.Nodup
  encountered_eq : sink.encountered = []
  unused : ∀ connection ∈ sink.connections, connection.attempts = 0 ∧ connection.sent = []

/-- A connection takes the place of the one of its name. -/
theorem names_replace (connection : OutputConnection) : (sink.connections.map fun known =>
    if known.name = connection.name then connection else known).map OutputConnection.name =
      sink.outputNames := by
  rw [List.map_map]
  apply List.map_congr_left
  intro known _
  rw [Function.comp_apply]
  split
  · rename_i named
    exact named.symm
  · rfl

/-- Connecting puts a new connection in the place of the one of its name, or at the end. -/
theorem connect_eq_ok {next : OutputSink} {backend nextBackend : MidiBackend} {name : String}
    (connects : sink.connect backend name = .ok (next, nextBackend)) :
    ∃ connection : OutputConnection, connection.name = name ∧ connection.attempts = 0 ∧
      connection.sent = [] ∧ next = { sink with
        connections :=
          if sink.connections.any fun known => known.name = name then
            sink.connections.map fun known => if known.name = name then connection else known
          else sink.connections ++ [connection] } := by
  unfold OutputSink.connect at connects
  cases created : backend.createClient with
  | error refusal =>
      rw [created] at connects
      cases connects
  | ok client =>
      rw [created] at connects
      cases found : client.visibleOutputs.find? (fun output =>
          output.named && output.name = name) with
      | none =>
          simp only [found, bind, Except.bind, throw, throwThe, MonadExceptOf.throw] at connects
          cases connects
      | some output =>
          cases refuses : output.refuses with
          | true =>
              simp [found, refuses, bind, Except.bind, throw, throwThe, MonadExceptOf.throw]
                at connects
          | false =>
              simp only [found, refuses, bind, Except.bind, pure, Except.pure, Bool.false_eq_true,
                if_false, Except.ok.injEq, Prod.mk.injEq] at connects
              exact ⟨_, rfl, rfl, rfl, connects.1.symm⟩

/-- A connection that is made anew is unused. -/
theorem Fresh.connect {next : OutputSink} {backend nextBackend : MidiBackend} {name : String}
    (fresh : sink.Fresh) (connects : sink.connect backend name = .ok (next, nextBackend)) :
    next.Fresh := by
  rcases connect_eq_ok connects with ⟨made, rfl, attempts_eq, sent_eq, rfl⟩
  split
  · refine ⟨?_, fresh.encountered_eq, ?_⟩
    · rw [outputNames, names_replace]
      exact fresh.names_nodup
    · intro connection connection_mem
      rcases List.mem_map.mp connection_mem with ⟨known, known_mem, rfl⟩
      split
      · exact ⟨attempts_eq, sent_eq⟩
      · exact fresh.unused known known_mem
  · rename_i unknown
    refine ⟨?_, fresh.encountered_eq, ?_⟩
    · rw [outputNames, List.map_append, List.map_singleton, ← List.concat_eq_append]
      refine fresh.names_nodup.concat ?_
      intro listed
      rcases List.mem_map.mp listed with ⟨known, known_mem, named⟩
      exact unknown (List.any_eq_true.mpr ⟨known, known_mem, decide_eq_true named⟩)
    · intro connection connection_mem
      rcases List.mem_append.mp connection_mem with known_mem | isNew
      · exact fresh.unused connection known_mem
      · cases List.mem_singleton.mp isNew
        exact ⟨attempts_eq, sent_eq⟩

theorem Fresh.connectAll {next : OutputSink} {backend nextBackend : MidiBackend}
    {names : List String} (fresh : sink.Fresh)
    (connects : sink.connectAll backend names = .ok (next, nextBackend)) : next.Fresh := by
  induction names generalizing sink backend with
  | nil =>
      cases connects
      exact fresh
  | cons name rest ih =>
      unfold OutputSink.connectAll at connects
      cases first : sink.connect backend name with
      | error refusal =>
          rw [first] at connects
          cases connects
      | ok made =>
          rw [first] at connects
          exact ih (fresh.connect first) connects

/-- The sink that is opened on the outputs of a backend is fresh. -/
theorem fresh_openAll {backend : MidiBackend} {velocity : Nat}
    (opened : openAll backend velocity = .ok sink) : sink.Fresh := by
  unfold openAll at opened
  cases listed : backend.outputNames with
  | error refusal =>
      rw [listed] at opened
      cases opened
  | ok found =>
      rw [listed] at opened
      cases made : ({ velocity } : OutputSink).connectAll found.1 (found.2.filter fun name =>
          !Text.occursIn shunned.toList name.toList) with
      | error refusal =>
          simp [made, bind, Except.bind] at opened
      | ok last =>
          simp only [made, bind, Except.bind, pure, Except.pure, Except.ok.injEq] at opened
          have unused : ({ velocity } : OutputSink).Fresh :=
            ⟨List.nodup_nil, rfl, List.forall_mem_nil _⟩
          rw [← opened]
          exact unused.connectAll made

theorem mem_remember {note other : Nat} {notes : List Nat} :
    other ∈ remember note notes ↔ other = note ∨ other ∈ notes := by
  induction notes with
  | nil => simp [remember]
  | cons first rest ih =>
      unfold remember
      split
      · simp
      · split
        · rename_i same
          simp [same]
        · simp only [List.mem_cons, ih]
          tauto

theorem mem_foldl_remember {other : Nat} {notes : List Nat} :
    other ∈ messages.foldl (fun notes message => remember message.note notes) notes ↔
      other ∈ notes ∨ ∃ message ∈ messages, message.note = other := by
  induction messages generalizing notes with
  | nil => simp
  | cons message rest ih =>
      rw [List.foldl_cons, ih, mem_remember]
      simp only [List.exists_mem_cons_iff, @eq_comm Nat other]
      tauto

/-- Sending on a name serves the connections one by one, in their places. -/
theorem forall₂_sendOn (name : String) (messages : List MidiMessage)
    (connections : List OutputConnection) :
    List.Forall₂ (OutputConnection.Served messages) connections
      (sendOn name messages connections).1 := by
  induction connections with
  | nil => exact .nil
  | cons connection rest ih =>
      unfold sendOn
      split
      · refine .cons (connection.served_sendAll messages) ?_
        exact List.forall₂_same.mpr fun other _ => .refl messages other
      · exact .cons (.refl messages connection) ih

theorem sendOn_of_not_mem (unknown : name ∉ connections.map OutputConnection.name) :
    sendOn name messages connections = (connections, none) := by
  induction connections with
  | nil => rfl
  | cons connection rest ih =>
      rw [List.map_cons, List.mem_cons, not_or] at unknown
      simp [sendOn, Ne.symm unknown.1, ih unknown.2]

/-- Sending on the name of a connection gives the messages to this one and to no other. -/
theorem sendOn_of_mem {connection : OutputConnection}
    (names_nodup : (connections.map OutputConnection.name).Nodup)
    (connection_mem : connection ∈ connections) :
    sendOn connection.name messages connections =
      (connections.map fun other =>
        if other.name = connection.name then (other.sendAll messages).1 else other,
        (connection.sendAll messages).2) := by
  induction connections with
  | nil => cases connection_mem
  | cons first rest ih =>
      rw [List.map_cons, List.nodup_cons] at names_nodup
      by_cases same : first.name = connection.name
      · have isFirst : connection = first := by
          rcases List.mem_cons.mp connection_mem with isFirst | inRest
          · exact isFirst
          · exact absurd (same ▸ List.mem_map_of_mem inRest) names_nodup.1
        subst isFirst
        have others : rest.map (fun other =>
            if other.name = connection.name then (other.sendAll messages).1 else other) = rest := by
          refine (List.map_congr_left ?_).trans (List.map_id rest)
          intro other other_mem
          rw [if_neg, id_eq]
          intro named
          exact names_nodup.1 (named ▸ List.mem_map_of_mem other_mem)
        simp [sendOn, others]
      · have inRest : connection ∈ rest := by
          rcases List.mem_cons.mp connection_mem with rfl | inRest
          · exact absurd rfl same
          · exact inRest
        simp [sendOn, same, ih names_nodup.2 inRest]

/-- Sending on all names serves the connections in their places, whatever fails. -/
theorem forall₂_sendEverywhere (messages : List MidiMessage) (order : List String)
    (connections : List OutputConnection) :
    List.Forall₂ (OutputConnection.Served messages) connections
      (sendEverywhere messages order connections).1 := by
  induction order generalizing connections with
  | nil => exact List.forall₂_same.mpr fun connection _ => .refl messages connection
  | cons name rest ih =>
      have here := forall₂_sendOn name messages connections
      unfold sendEverywhere
      split
      · rename_i stopped
        rw [stopped] at here
        exact here
      · rename_i gone
        rw [gone] at here
        exact OutputConnection.forall₂_trans .trans here (ih _)

theorem sendEverywhere_cons (messages : List MidiMessage) (name : String) (rest : List String)
    (connections : List OutputConnection) :
    sendEverywhere messages (name :: rest) connections =
      match (sendOn name messages connections).2 with
      | some error => ((sendOn name messages connections).1, some error)
      | none => sendEverywhere messages rest (sendOn name messages connections).1 := by
  rw [sendEverywhere]
  split <;> simp_all

theorem sendEverywhere_append (messages : List MidiMessage) (earlier later : List String)
    (connections : List OutputConnection) :
    sendEverywhere messages (earlier ++ later) connections =
      match (sendEverywhere messages earlier connections).2 with
      | some error => ((sendEverywhere messages earlier connections).1, some error)
      | none => sendEverywhere messages later (sendEverywhere messages earlier connections).1 := by
  induction earlier generalizing connections with
  | nil => rfl
  | cons name rest ih =>
      rw [List.cons_append, sendEverywhere_cons, sendEverywhere_cons]
      cases (sendOn name messages connections).2 with
      | some error => rfl
      | none => exact ih _

theorem mem_sendOn_of_ne {connection : OutputConnection} (connection_mem : connection ∈ connections)
    (differs : connection.name ≠ name) : connection ∈ (sendOn name messages connections).1 := by
  induction connections with
  | nil => cases connection_mem
  | cons first rest ih =>
      unfold sendOn
      split
      · rename_i named
        rcases List.mem_cons.mp connection_mem with rfl | inRest
        · exact absurd named differs
        · exact List.mem_cons_of_mem _ inRest
      · rcases List.mem_cons.mp connection_mem with rfl | inRest
        · exact List.mem_cons_self
        · exact List.mem_cons_of_mem _ (ih inRest)

/-- A connection whose name does not come up stays as it is. -/
theorem mem_sendEverywhere_of_not_mem {connection : OutputConnection}
    (connection_mem : connection ∈ connections) (unlisted : connection.name ∉ order) :
    connection ∈ (sendEverywhere messages order connections).1 := by
  induction order generalizing connections with
  | nil => exact connection_mem
  | cons name rest ih =>
      rw [List.mem_cons, not_or] at unlisted
      have here : connection ∈ (sendOn name messages connections).1 :=
        mem_sendOn_of_ne connection_mem unlisted.1
      rw [sendEverywhere_cons]
      split
      · exact here
      · exact ih here unlisted.2

/-- The connections after those of some names have taken the messages. -/
def given (messages : List MidiMessage) (names : List String)
    (connections : List OutputConnection) : List OutputConnection :=
  connections.map fun connection =>
    if connection.name ∈ names then connection.taking messages else connection

theorem map_name_given (messages : List MidiMessage) (names : List String)
    (connections : List OutputConnection) :
    (given messages names connections).map OutputConnection.name =
      connections.map OutputConnection.name := by
  rw [given, List.map_map]
  apply List.map_congr_left
  intro connection _
  rw [Function.comp_apply]
  split <;> rfl

theorem mem_given_of_not_mem {connection : OutputConnection} {names : List String}
    (connection_mem : connection ∈ connections) (unlisted : connection.name ∉ names) :
    connection ∈ given messages names connections :=
  List.mem_map.mpr ⟨connection, connection_mem, if_neg unlisted⟩

theorem given_given (fresh : name ∉ later) (connections : List OutputConnection) :
    given messages later (given messages [name] connections) =
      given messages (name :: later) connections := by
  rw [given, given, given, List.map_map]
  apply List.map_congr_left
  intro connection _
  by_cases named : connection.name = name
  · simp [named, OutputConnection.taking, fresh]
  · simp [named]

/-- What is given on one name changes no connection of another. -/
theorem forall_mem_given_iff {holds : OutputConnection → Prop} (fresh : name ∉ later) :
    (∀ connection ∈ given messages [name] connections,
      connection.name ∈ later → holds connection) ↔
        ∀ connection ∈ connections, connection.name ∈ later → holds connection := by
  constructor
  · intro holds_given connection connection_mem listed
    refine holds_given connection (mem_given_of_not_mem connection_mem ?_) listed
    rw [List.mem_singleton]
    rintro rfl
    exact fresh listed
  · intro holds_old connection connection_mem listed
    rcases List.mem_map.mp connection_mem with ⟨old, old_mem, rfl⟩
    by_cases named : old.name = name
    · simp only [List.mem_singleton, named, if_true] at listed
      exact absurd (named ▸ listed) fresh
    · simp only [List.mem_singleton, named, if_false] at listed ⊢
      exact holds_old old old_mem listed

/-- Sending on a name succeeds exactly if the connection of this name takes all messages. -/
theorem sendOn_snd_eq_none_iff (names_nodup : (connections.map OutputConnection.name).Nodup) :
    (sendOn name messages connections).2 = none ↔
      ∀ connection ∈ connections, connection.name = name →
        (connection.sendAll messages).2 = none := by
  by_cases known : name ∈ connections.map OutputConnection.name
  · rcases List.mem_map.mp known with ⟨connection, connection_mem, rfl⟩
    rw [sendOn_of_mem names_nodup connection_mem]
    constructor
    · intro taken other other_mem same
      rwa [List.inj_on_of_nodup_map names_nodup other_mem connection_mem same]
    · intro taken
      exact taken connection connection_mem rfl
  · rw [sendOn_of_not_mem known]
    refine iff_of_true rfl ?_
    rintro connection connection_mem rfl
    exact absurd (List.mem_map_of_mem connection_mem) known

theorem sendOn_of_none (names_nodup : (connections.map OutputConnection.name).Nodup)
    (noError : (sendOn name messages connections).2 = none) :
    (sendOn name messages connections).1 = given messages [name] connections := by
  have taken := (sendOn_snd_eq_none_iff names_nodup).mp noError
  by_cases known : name ∈ connections.map OutputConnection.name
  · rcases List.mem_map.mp known with ⟨connection, connection_mem, rfl⟩
    rw [sendOn_of_mem names_nodup connection_mem, given]
    apply List.map_congr_left
    intro other other_mem
    by_cases same : other.name = connection.name
    · simp [same, OutputConnection.sendAll_of_taken (taken other other_mem same)]
    · simp [same]
  · rw [sendOn_of_not_mem known, given]
    refine ((List.map_congr_left ?_).trans (List.map_id connections)).symm
    intro connection connection_mem
    rw [if_neg, id_eq]
    rw [List.mem_singleton]
    rintro rfl
    exact known (List.mem_map_of_mem connection_mem)

/-- Sending on all names succeeds exactly if each connection that comes up takes all messages, and
then each of them has taken them. The induction is on the names to come. -/
theorem sendEverywhere_snd_eq_none_iff (messages : List MidiMessage)
    (names_nodup : (connections.map OutputConnection.name).Nodup) (order_nodup : order.Nodup) :
    ((sendEverywhere messages order connections).2 = none ↔
      ∀ connection ∈ connections, connection.name ∈ order →
        (connection.sendAll messages).2 = none) ∧
      ((sendEverywhere messages order connections).2 = none →
        (sendEverywhere messages order connections).1 = given messages order connections) := by
  induction order generalizing connections with
  | nil => simp [sendEverywhere, given]
  | cons name rest ih =>
      rw [List.nodup_cons] at order_nodup
      have split_iff : (∀ connection ∈ connections, connection.name ∈ name :: rest →
          (connection.sendAll messages).2 = none) ↔
            (sendOn name messages connections).2 = none ∧
              ∀ connection ∈ connections, connection.name ∈ rest →
                (connection.sendAll messages).2 = none := by
        rw [sendOn_snd_eq_none_iff names_nodup]
        simp only [List.mem_cons, or_imp, forall_and]
      rw [sendEverywhere_cons, split_iff]
      cases here : (sendOn name messages connections).2 with
      | some error => simp
      | none =>
          have next_nodup :
              ((given messages [name] connections).map OutputConnection.name).Nodup := by
            rwa [map_name_given]
          rcases ih next_nodup order_nodup.2 with ⟨none_iff, given_eq⟩
          rw [forall_mem_given_iff order_nodup.1] at none_iff
          simp only [sendOn_of_none names_nodup here, true_and]
          refine ⟨none_iff, ?_⟩
          intro noError
          rw [given_eq noError, given_given order_nodup.1]

/-- A connection is given the messages exactly if all connections whose names come before its own
take them. -/
theorem mem_sendEverywhere_split {connection : OutputConnection}
    (names_nodup : (connections.map OutputConnection.name).Nodup)
    (order_nodup : (earlier ++ connection.name :: later).Nodup)
    (connection_mem : connection ∈ connections) :
    (if ∀ other ∈ connections, other.name ∈ earlier → (other.sendAll messages).2 = none
      then (connection.sendAll messages).1 else connection) ∈
        (sendEverywhere messages (earlier ++ connection.name :: later) connections).1 := by
  rcases List.nodup_append.mp order_nodup with ⟨earlier_nodup, rest_nodup, apart⟩
  rw [List.nodup_cons] at rest_nodup
  have notEarlier : connection.name ∉ earlier := fun isEarlier =>
    apart _ isEarlier _ List.mem_cons_self rfl
  rcases sendEverywhere_snd_eq_none_iff messages names_nodup earlier_nodup with
    ⟨none_iff, given_eq⟩
  rw [sendEverywhere_append]
  by_cases reached : ∀ other ∈ connections, other.name ∈ earlier →
      (other.sendAll messages).2 = none
  · have noError := none_iff.mpr reached
    have here : connection ∈ given messages earlier connections :=
      mem_given_of_not_mem connection_mem notEarlier
    have given_nodup : ((given messages earlier connections).map OutputConnection.name).Nodup := by
      rwa [map_name_given]
    have served : (connection.sendAll messages).1 ∈
        (sendOn connection.name messages (given messages earlier connections)).1 := by
      rw [sendOn_of_mem given_nodup here]
      exact List.mem_map.mpr ⟨connection, here, if_pos rfl⟩
    have sameName := (connection.served_sendAll messages).name_eq
    rw [if_pos reached, noError, given_eq noError]
    simp only
    rw [sendEverywhere_cons]
    split
    · exact served
    · exact mem_sendEverywhere_of_not_mem served (sameName ▸ rest_nodup.1)
  · rw [if_neg reached]
    cases failed : (sendEverywhere messages earlier connections).2 with
    | none => exact absurd (none_iff.mp failed) reached
    | some error => exact mem_sendEverywhere_of_not_mem connection_mem notEarlier

/-- If ending all notes succeeds, every connection has taken all messages. -/
theorem connections_allNotesOff (names_nodup : sink.outputNames.Nodup)
    (anyOrder : order.Perm sink.outputNames) (ended : (sink.allNotesOff order).2 = .ok ()) :
    (sink.allNotesOff order).1.connections =
      sink.connections.map fun connection => connection.taking sink.silencing := by
  have noError : (sendEverywhere sink.silencing order sink.connections).2 = none := by
    unfold OutputSink.allNotesOff at ended
    cases failed : (sendEverywhere sink.silencing order sink.connections).2 with
    | none => rfl
    | some error => simp [failed] at ended
  have order_nodup : order.Nodup := anyOrder.nodup_iff.mpr names_nodup
  calc (sink.allNotesOff order).1.connections
    _ = given sink.silencing order sink.connections :=
        (sendEverywhere_snd_eq_none_iff _ names_nodup order_nodup).2 noError
    _ = sink.connections.map fun connection => connection.taking sink.silencing := by
        apply List.map_congr_left
        intro connection connection_mem
        rw [if_pos]
        rw [anyOrder.mem_iff]
        exact List.mem_map_of_mem connection_mem

/-- The sink remembers a number for everything that its connections were sent. -/
structure Remembers (sink : OutputSink) : Prop where
  inRange : ∀ number ∈ sink.encountered, number < 128
  covers : ∀ connection ∈ sink.connections, ∀ message ∈ connection.sent,
    message.channel = 0 ∧ message.note ∈ sink.encountered

theorem Fresh.remembers (fresh : sink.Fresh) : sink.Remembers := by
  constructor
  · rw [fresh.encountered_eq]
    exact List.forall_mem_nil _
  · intro connection connection_mem
    rw [(fresh.unused connection connection_mem).2]
    exact List.forall_mem_nil _

/-- Messages that are remembered may be given to any of the connections. -/
theorem Remembers.serve {encountered : List Nat} (remembers : sink.Remembers)
    (served : List.Forall₂ (OutputConnection.Served messages) sink.connections connections)
    (grows : ∀ number ∈ sink.encountered, number ∈ encountered)
    (known : ∀ message ∈ messages, message.channel = 0 ∧ message.note ∈ encountered)
    (inRange : ∀ number ∈ encountered, number < 128) :
    ({ sink with connections, encountered } : OutputSink).Remembers := by
  refine ⟨inRange, ?_⟩
  intro connection connection_mem message message_mem
  rcases OutputConnection.exists_served_of_mem served connection_mem with ⟨old, old_mem, oldServed⟩
  rcases oldServed.given message message_mem with sent | given
  · rcases remembers.covers old old_mem message sent with ⟨channel_eq, note_mem⟩
    exact ⟨channel_eq, grows _ note_mem⟩
  · exact known message given

theorem Remembers.silencing_eq (remembers : sink.Remembers) :
    sink.silencing = sink.encountered.map fun number => ⟨noteOff, number, sink.velocity % 128⟩ :=
  ofChord_release_ofMidi remembers.inRange 0 sink.velocity

theorem Remembers.deliver (remembers : sink.Remembers) (order : List String)
    (delivery : Delivery) : (sink.deliver order delivery).1.Remembers := by
  unfold OutputSink.deliver
  split
  · exact remembers
  · split
    · exact remembers
    · refine remembers.serve (forall₂_sendOn ..) ?_ ?_ ?_
      · intro number number_mem
        exact mem_foldl_remember.mpr (Or.inl number_mem)
      · intro message message_mem
        exact ⟨channel_of_mem_ofChord message_mem,
          mem_foldl_remember.mpr (Or.inr ⟨message, message_mem, rfl⟩)⟩
      · intro number number_mem
        rcases mem_foldl_remember.mp number_mem with before | ⟨message, message_mem, rfl⟩
        · exact remembers.inRange number before
        · exact note_lt_of_mem_ofChord message_mem

theorem Remembers.allNotesOff (remembers : sink.Remembers) (order : List String) :
    (sink.allNotesOff order).1.Remembers := by
  refine remembers.serve (forall₂_sendEverywhere ..) (fun _ => id) ?_ remembers.inRange
  intro message message_mem
  rw [remembers.silencing_eq] at message_mem
  rcases List.mem_map.mp message_mem with ⟨number, number_mem, rfl⟩
  exact ⟨by simp [channel, noteOff], number_mem⟩

theorem Remembers.after (remembers : sink.Remembers) (requests : List OutputRequest) :
    (sink.after requests).Remembers := by
  induction requests generalizing sink with
  | nil => exact remembers
  | cons request rest ih =>
      cases request with
      | deliver order delivery => exact ih (remembers.deliver order delivery)
      | allNotesOff order => exact ih (remembers.allNotesOff order)

/-- Whatever a sink is asked, each of its connections stays in its place. -/
theorem forall₂_answer (sink : OutputSink) (request : OutputRequest) :
    List.Forall₂ OutputConnection.Extends sink.connections (sink.answer request).1.connections := by
  have unchanged : List.Forall₂ OutputConnection.Extends sink.connections sink.connections :=
    List.forall₂_same.mpr fun connection _ => .refl connection
  cases request with
  | deliver order delivery =>
      rw [answer, OutputSink.deliver]
      split
      · exact unchanged
      · split
        · exact unchanged
        · exact (forall₂_sendOn ..).imp fun _ _ served => served.toExtends
  | allNotesOff order => exact (forall₂_sendEverywhere ..).imp fun _ _ served => served.toExtends

theorem forall₂_after (sink : OutputSink) (requests : List OutputRequest) :
    List.Forall₂ OutputConnection.Extends sink.connections (sink.after requests).connections := by
  induction requests generalizing sink with
  | nil => exact List.forall₂_same.mpr fun connection _ => .refl connection
  | cons request rest ih =>
      exact OutputConnection.forall₂_trans .trans (sink.forall₂_answer request) (ih _)

theorem outputNames_after (sink : OutputSink) (requests : List OutputRequest) :
    (sink.after requests).outputNames = sink.outputNames :=
  OutputConnection.map_name_eq (sink.forall₂_after requests)

theorem Fresh.names_nodup_after (fresh : sink.Fresh) (requests : List OutputRequest) :
    ((sink.after requests).connections.map OutputConnection.name).Nodup := by
  have names_eq : (sink.after requests).connections.map OutputConnection.name =
      sink.outputNames :=
    sink.outputNames_after requests
  rw [names_eq]
  exact fresh.names_nodup

/-- The messages that end every note end each note that a connection was sent, and start none. -/
theorem Remembers.exists_ends (remembers : sink.Remembers) {connection : OutputConnection}
    (connection_mem : connection ∈ sink.connections) {start : MidiMessage}
    (sent : start ∈ connection.sent) : ∃ off ∈ sink.silencing, off.Ends start := by
  rcases remembers.covers connection connection_mem start sent with ⟨channel_eq, note_mem⟩
  rw [remembers.silencing_eq]
  refine ⟨_, List.mem_map_of_mem note_mem, ?_, ?_, rfl⟩
  · simp [kind, noteOff]
  · rw [channel_eq]
    simp [channel, noteOff]

theorem Remembers.not_startsNote (remembers : sink.Remembers) {off : MidiMessage}
    (off_mem : off ∈ sink.silencing) : ¬off.StartsNote := by
  rw [remembers.silencing_eq] at off_mem
  rcases List.mem_map.mp off_mem with ⟨number, _, rfl⟩
  simp [StartsNote, kind, noteOff, noteOn]

theorem Remembers.silenced_taking (remembers : sink.Remembers) {connection : OutputConnection}
    (connection_mem : connection ∈ sink.connections) :
    Silenced (connection.taking sink.silencing).sent :=
  silenced_append (fun _ sent _ => remembers.exists_ends connection_mem sent)
    fun _ off_mem => remembers.not_startsNote off_mem

/-- Whatever was delivered before and however sending failed, in whatever orders the outputs were
gone through, ending all notes without an error silences every output. Each connection that there
ever was is still there, with all that it was ever sent, and behind that it gets a message that ends
each note that was ever started on any connection. -/
theorem silenced_of_allNotesOff (fresh : sink.Fresh) (requests : List OutputRequest)
    (anyOrder : order.Perm sink.outputNames)
    (ended : ((sink.after requests).allNotesOff order).2 = .ok ()) :
    let before := sink.after requests
    let final := (before.allNotesOff order).1
    (∀ earlier later, requests = earlier ++ later →
      List.Forall₂ OutputConnection.Extends (sink.after earlier).connections final.connections) ∧
      List.Forall₂ (fun connection last => Silenced last.sent ∧ ∃ offs,
        last.sent = connection.sent ++ offs ∧
          ∀ other ∈ before.connections, ∀ start ∈ other.sent, start.StartsNote →
            ∃ off ∈ offs, off.Ends start) before.connections final.connections := by
  intro before final
  have remembers : before.Remembers := fresh.remembers.after requests
  have anyOrder' : order.Perm before.outputNames := by rwa [sink.outputNames_after requests]
  have connections_eq : final.connections =
      before.connections.map fun connection => connection.taking before.silencing :=
    connections_allNotesOff (fresh.names_nodup_after requests) anyOrder' ended
  constructor
  · rintro earlier later rfl
    have between : sink.after (earlier ++ later) = (sink.after earlier).after later :=
      List.foldl_append
    refine OutputConnection.forall₂_trans .trans ((sink.after earlier).forall₂_after later) ?_
    rw [← between]
    exact before.forall₂_answer (.allNotesOff order)
  · rw [connections_eq, List.forall₂_map_right_iff, List.forall₂_same]
    intro connection connection_mem
    refine ⟨remembers.silenced_taking connection_mem, before.silencing, rfl, ?_⟩
    intro other other_mem start sent _
    exact remembers.exists_ends other_mem sent

/-- A connection fails once and recovers: three notes are asked for and one gets through, then there
is no output for an instrument, and a note is ended too early. Ending all notes still ends each. -/
theorem silenced_of_allNotesOff_recovered :
    let sink : OutputSink := { connections := [
      { name := "deck", refusal? := fun attempt => if attempt = 1 then some "busy" else none },
      { name := "rack" }] }
    let requests : List OutputRequest := [
      .deliver ["rack", "deck"] ⟨"deck", .strike [.ofMidi 60, .ofMidi 64, .ofMidi 67]⟩,
      .deliver ["rack", "deck"] ⟨"attic", .strike [.ofMidi 72]⟩,
      .deliver ["rack", "deck"] ⟨"rack", .release [.ofMidi 48]⟩,
      .deliver ["rack", "deck"] ⟨"RACK", .strike [.ofMidi 48, .ofMidi 127]⟩]
    let before := sink.after requests
    (before.allNotesOff ["rack", "deck"]).2 = .ok () ∧
      before.connections.map (fun connection => connection.sent.length) = [1, 3] ∧
      List.Forall₂ (fun connection last => Silenced last.sent ∧ connection.sent <+: last.sent)
        before.connections (before.allNotesOff ["rack", "deck"]).1.connections := by
  intro sink requests before
  have fresh : sink.Fresh := ⟨by decide, rfl, by simp [sink]⟩
  have ended : (before.allNotesOff ["rack", "deck"]).2 = .ok () := by decide +kernel
  have anyOrder : ["rack", "deck"].Perm sink.outputNames := by decide
  refine ⟨ended, by decide +kernel, ?_⟩
  refine (silenced_of_allNotesOff fresh requests anyOrder ended).2.imp ?_
  rintro connection last ⟨silenced, offs, sent_eq, _⟩
  exact ⟨silenced, sent_eq ▸ List.prefix_append _ _⟩

/-- In whatever order the outputs are gone through, a connection that has not failed is silenced, if
it was not before, exactly if ending all notes reaches it: if all connections whose names come
before its own take their messages. The same holds of giving the sink up. -/
theorem silenced_iff_reached {connection : OutputConnection} (fresh : sink.Fresh)
    (requests : List OutputRequest) (anyOrder : order.Perm sink.outputNames)
    (connection_mem : connection ∈ (sink.after requests).connections)
    (split : order = earlier ++ connection.name :: later) :
    let before := sink.after requests
    ∃ final ∈ (before.allNotesOff order).1.connections, final.name = connection.name ∧
      final ∈ (before.close order).1.connections ∧
      (final.Healthy → (Silenced final.sent ↔ Silenced connection.sent ∨
        ∀ other ∈ before.connections, other.name ∈ earlier →
          (other.sendAll before.silencing).2 = none)) := by
  intro before
  have remembers : before.Remembers := fresh.remembers.after requests
  have names_nodup : (before.connections.map OutputConnection.name).Nodup :=
    fresh.names_nodup_after requests
  have order_nodup : order.Nodup := anyOrder.nodup_iff.mpr fresh.names_nodup
  have found : (if ∀ other ∈ before.connections, other.name ∈ earlier →
      (other.sendAll before.silencing).2 = none then (connection.sendAll before.silencing).1
      else connection) ∈ (before.allNotesOff order).1.connections := by
    subst split
    exact mem_sendEverywhere_split names_nodup order_nodup connection_mem
  have closed : (before.close order).1 = (before.allNotesOff order).1 := by
    unfold OutputSink.close
    split <;> simp_all
  refine ⟨_, found, ?_, ?_, ?_⟩
  · split
    · exact (connection.served_sendAll before.silencing).name_eq
    · rfl
  · rw [closed]
    exact found
  · intro healthy
    by_cases reached : ∀ other ∈ before.connections, other.name ∈ earlier →
        (other.sendAll before.silencing).2 = none
    · rw [if_pos reached] at healthy ⊢
      have taken := OutputConnection.taken_of_healthy healthy
      rw [OutputConnection.sendAll_of_taken taken]
      have silenced := remembers.silenced_taking connection_mem
      exact ⟨fun _ => Or.inr reached, fun _ => silenced⟩
    · rw [if_neg reached]
      exact ⟨Or.inl, fun either => either.resolve_right reached⟩

/-- The outputs are gone through backwards: the first one takes its last messages when the notes are
ended and the second one fails, so the third one is not reached. -/
theorem silenced_iff_reached_third :
    let sink : OutputSink := { connections := [
      { name := "loft" },
      { name := "rack", refusal? := fun attempt => if 1 ≤ attempt then some "gone" else none },
      { name := "deck", refusal? := fun attempt => if 3 ≤ attempt then some "gone" else none }] }
    let order := ["deck", "rack", "loft"]
    let requests : List OutputRequest := [.deliver order ⟨"loft", .strike [.ofMidi 60]⟩,
      .allNotesOff order, .deliver order ⟨"loft", .strike [.ofMidi 64]⟩]
    order.Perm sink.outputNames ∧
      ∃ final ∈ ((sink.after requests).close order).1.connections, final.name = "loft" ∧
        final.Healthy ∧ ¬Silenced final.sent := by
  intro sink order requests
  have fresh : sink.Fresh := ⟨by decide, rfl, by simp [sink]⟩
  have anyOrder : order.Perm sink.outputNames := by decide
  have loft : ∃ connection ∈ (sink.after requests).connections,
      connection.name = "loft" ∧ ¬Silenced connection.sent := by
    decide +kernel
  rcases loft with ⟨connection, connection_mem, named, sounding⟩
  have split : order = ["deck", "rack"] ++ connection.name :: [] := by rw [named]; rfl
  rcases silenced_iff_reached fresh requests anyOrder connection_mem split with
    ⟨final, _, sameName, closed, silenced_iff⟩
  have healthy : ∀ final ∈ ((sink.after requests).close order).1.connections,
      final.name = "loft" → final.Healthy := by
    decide +kernel
  have missed : ¬∀ other ∈ (sink.after requests).connections, other.name ∈ ["deck", "rack"] →
      (other.sendAll (sink.after requests).silencing).2 = none := by
    decide +kernel
  refine ⟨anyOrder, final, closed, sameName.trans named, ?_, ?_⟩
  · exact healthy final closed (sameName.trans named)
  · rw [silenced_iff (healthy final closed (sameName.trans named))]
    rintro (silenced | reached)
    · exact sounding silenced
    · exact missed reached

/-- If the outputs are gone through in this order, an output that takes no message keeps the note of
another one sounding, which never failed. In the other order it does not. -/
theorem not_silenced_behind_failing :
    let sink : OutputSink := { connections := [
      { name := "live" },
      { name := "dead",
        refusal? := MidiOutput.refusal? { name := "dead", failsAfter := some 0 } }] }
    let requests : List OutputRequest :=
      [.deliver ["dead", "live"] ⟨"live", .strike [.middleC]⟩]
    let silent (order : List String) : Prop :=
      (∀ final ∈ ((sink.after requests).allNotesOff order).1.connections,
        final.Healthy → Silenced final.sent) ∧
        ∀ final ∈ ((sink.after requests).close order).1.connections,
          final.Healthy → Silenced final.sent
    sink.Fresh ∧ ["dead", "live"].Perm sink.outputNames ∧ ["live", "dead"].Perm sink.outputNames ∧
      ¬silent ["dead", "live"] ∧ silent ["live", "dead"] := by
  intro sink requests silent
  refine ⟨⟨by decide, rfl, by simp [sink]⟩, by decide, by decide, ?_, ?_⟩
  · rintro ⟨_, closed⟩
    revert closed
    decide +kernel
  · constructor
    · decide +kernel
    · decide +kernel

end OutputSink

end LiveScore
