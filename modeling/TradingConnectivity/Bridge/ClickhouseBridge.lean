import TradingConnectivity.Bridge.Rows
import TradingConnectivity.Connector.Startup

/-! # The bridge to the tables

A thread decodes the fragments of the streams and puts the messages into a channel without bounds;
a task takes them out one by one and inserts their rows, unless the inserter fails or takes too
long. Both go on at their own pace. `rows_inserted` says what has been inserted after any run, and
`rows_of_stream` whose messages it shows when the fragments come from the connector.
-/

namespace TradingConnectivity.Bridge

open ConnectorCore
open Connector (Delivery Listing Settings Source)

/-- The thread sees a fragment, the timer of the batches fires, or the task takes a message out of
the channel; then the input says whether the inserter takes the row in time. -/
inductive BridgeInput
  | fragment (bytes : List UInt8)
  | flushTick
  | receive (taken : Bool)

/-- An insertion is attempted, or all tables are committed. -/
inductive BridgeEffect
  | insert (row : Row) (taken : Bool)
  | commit

/-- The bridge ends when a conversion panics. -/
structure ClickhouseBridge where
  channel : List NormalizedMessage
  msgsWritten : UInt64
  running : Bool

/-- Fragments that are too short or do not decode are dropped. -/
def BridgeInput.message? : BridgeInput → Option NormalizedMessage
  | .fragment bytes =>
    if bytes.length < headerSize then none else (NormalizedMessage.fromBytes bytes).toOption
  | _ => none

def BridgeInput.fragment? : BridgeInput → Option (List UInt8)
  | .fragment bytes => some bytes
  | _ => none

/-- An attempt to insert a row, and whether the inserter took it. -/
def BridgeEffect.insertion? : BridgeEffect → Option (Row × Bool)
  | insert row taken => some (row, taken)
  | commit => none

namespace ClickhouseBridge

def start : ClickhouseBridge := ⟨[], 0, true⟩

/-- A message is counted, and every 10000 of them are committed at once. -/
def count (work : Work ClickhouseBridge BridgeEffect) : Work ClickhouseBridge BridgeEffect :=
  let counted := work.update fun s => { s with msgsWritten := s.msgsWritten + 1 }
  if counted.state.msgsWritten % 10000 = 0 then counted.emit .commit else counted

def write (msg : NormalizedMessage) (taken : Bool) (work : Work ClickhouseBridge BridgeEffect) :
    Work ClickhouseBridge BridgeEffect :=
  match convert msg with
  | .row row => count (work.emit (.insert row taken))
  | .noTable => count work
  | .panicked => work.update ({ · with running := false })

def onReceive (taken : Bool) (work : Work ClickhouseBridge BridgeEffect) :
    Work ClickhouseBridge BridgeEffect :=
  match work.state.channel with
  | [] => work
  | msg :: rest => write msg taken (work.update ({ · with channel := rest }))

def handle (input : BridgeInput) (work : Work ClickhouseBridge BridgeEffect) :
    Work ClickhouseBridge BridgeEffect :=
  if work.state.running then
    match input with
    | .fragment _ =>
      work.update fun s => { s with channel := s.channel ++ input.message?.toList }
    | .flushTick => work.emit .commit
    | .receive taken => onReceive taken work
  else work

/-- The bridge as a machine; its answers are what it does to the tables. -/
def machine : Machine ClickhouseBridge BridgeInput (List BridgeEffect) := .ofHandler handle

/-! ## Rows -/

/-- The attempts of a run, in their order. -/
def insertions (effects : List BridgeEffect) : List (Row × Bool) :=
  effects.filterMap BridgeEffect.insertion?

private theorem insertions_append (first second : List BridgeEffect) :
    insertions (first ++ second) = insertions first ++ insertions second := List.filterMap_append

/-- The rows that the inserter took. -/
def rows (effects : List BridgeEffect) : List Row :=
  (insertions effects).filterMap fun (row, taken) => if taken then some row else none

/-- The rows of some messages, of those that have one. -/
def rowsOf (messages : List NormalizedMessage) : List Row :=
  messages.filterMap fun msg => (convert msg).row?

/-- The messages whose rows the inserter was ready to take, of those taken out of the channel. -/
def accepted (consumed : List (NormalizedMessage × Bool)) : List NormalizedMessage :=
  consumed.filterMap fun (msg, taken) => if taken then some msg else none

private theorem accepted_sublist (consumed : List (NormalizedMessage × Bool)) :
    (accepted consumed).Sublist (consumed.map Prod.fst) := by
  induction consumed with
  | nil => exact .slnil
  | cons pair rest ih =>
    obtain ⟨msg, taken⟩ := pair
    cases taken with
    | true => exact ih.cons_cons msg
    | false => exact ih.cons msg

/-- The attempts that some messages lead to. -/
def attemptsOf (consumed : List (NormalizedMessage × Bool)) : List (Row × Bool) :=
  consumed.filterMap fun (msg, taken) => (convert msg).row?.map fun row => (row, taken)

/-- The rows of the attempts that succeed are those of the accepted messages. -/
private theorem rows_of_attempts {effects : List BridgeEffect}
    {consumed : List (NormalizedMessage × Bool)}
    (attempted : insertions effects = attemptsOf consumed) :
    rows effects = rowsOf (accepted consumed) := by
  rw [rows, attempted, attemptsOf, rowsOf, accepted, List.filterMap_filterMap,
    List.filterMap_filterMap]
  congr 1
  funext ⟨msg, taken⟩
  cases taken with
  | true => cases row : (convert msg).row? <;> simp [row]
  | false => cases row : (convert msg).row? <;> simp [row]

/-- How far the bridge has come with the messages it has decoded: it has tried to insert the rows of
those that were taken out of the channel, in their order. A running bridge still holds the others,
and one that has ended was ended by the last message it took. -/
inductive Progress (messages : List NormalizedMessage) (attempted : List (Row × Bool))
    (bridge : ClickhouseBridge) (consumed : List (NormalizedMessage × Bool)) : Prop
  | going (alive : bridge.running = true)
      (split : messages = consumed.map Prod.fst ++ bridge.channel)
      (converted : ∀ pair ∈ consumed, convert pair.1 ≠ .panicked)
      (tried : attempted = attemptsOf consumed)
  | ended (dead : bridge.running = false) (rest : List NormalizedMessage)
      (fatal : NormalizedMessage) (split : messages = consumed.map Prod.fst ++ fatal :: rest)
      (converted : ∀ pair ∈ consumed, convert pair.1 ≠ .panicked)
      (panicked : convert fatal = .panicked) (tried : attempted = attemptsOf consumed)

namespace Progress

variable {messages : List NormalizedMessage} {attempted : List (Row × Bool)}
  {bridge : ClickhouseBridge} {consumed : List (NormalizedMessage × Bool)}

private theorem attempts_eq (progress : Progress messages attempted bridge consumed) :
    attempted = attemptsOf consumed := by
  cases progress with
  | going alive split converted tried => exact tried
  | ended dead rest fatal split converted panicked tried => exact tried

/-- The messages taken out of the channel are the first ones. -/
theorem front (progress : Progress messages attempted bridge consumed) :
    consumed.map Prod.fst <+: messages := by
  cases progress with
  | going alive split converted tried => exact ⟨_, split.symm⟩
  | ended dead rest fatal split converted panicked tried => exact ⟨_, split.symm⟩

end Progress

private theorem count_spec (work : Work ClickhouseBridge BridgeEffect) :
    (count work).state.channel = work.state.channel ∧
      (count work).state.running = work.state.running ∧
      insertions (count work).effects = insertions work.effects := by
  rw [count]
  split
  · exact ⟨rfl, rfl, by simp [insertions, BridgeEffect.insertion?]⟩
  · exact ⟨rfl, rfl, rfl⟩

/-- A message that the task takes out of the channel. -/
theorem Progress.write {messages rest : List NormalizedMessage} {msg : NormalizedMessage}
    {consumed : List (NormalizedMessage × Bool)} {bridge : ClickhouseBridge}
    (alive : bridge.running = true) (split : messages = consumed.map Prod.fst ++ msg :: rest)
    (converted : ∀ pair ∈ consumed, convert pair.1 ≠ .panicked) (taken : Bool) :
    let work := ClickhouseBridge.write msg taken ⟨{ bridge with channel := rest }, []⟩
    ∃ consumed', Progress messages (attemptsOf consumed ++ insertions work.effects) work.state
      consumed' := by
  intro work
  have more : messages = (consumed ++ [(msg, taken)]).map Prod.fst ++ rest := by
    rw [split, List.map_append, List.append_assoc]
    rfl
  have both : attemptsOf (consumed ++ [(msg, taken)]) =
      attemptsOf consumed ++ ((convert msg).row?.map fun row => (row, taken)).toList := by
    rw [attemptsOf, List.filterMap_append]
    cases row : (convert msg).row? <;> simp [attemptsOf, row]
  -- with or without a row, the message is counted and the bridge goes on
  have goes (effects : List BridgeEffect) (sound : convert msg ≠ .panicked)
      (inserts : insertions effects = ((convert msg).row?.map fun row => (row, taken)).toList)
      (written : work = count ⟨{ bridge with channel := rest }, effects⟩) :
      ∃ consumed', Progress messages (attemptsOf consumed ++ insertions work.effects) work.state
        consumed' := by
    obtain ⟨channel, running, inserted⟩ := count_spec ⟨{ bridge with channel := rest }, effects⟩
    rw [written, inserted, inserts, ← both]
    refine ⟨consumed ++ [(msg, taken)], .going (running.trans alive) (channel ▸ more) ?_ rfl⟩
    exact List.forall_mem_append.mpr ⟨converted, List.forall_mem_singleton.mpr sound⟩
  cases result : convert msg with
  | row row =>
    refine goes [.insert row taken] (by simp [result]) (by rw [result]; rfl) ?_
    simp only [work, ClickhouseBridge.write, result]
    rfl
  | noTable =>
    refine goes [] (by simp [result]) (by rw [result]; rfl) ?_
    simp only [work, ClickhouseBridge.write, result]
  | panicked =>
    have ends : work = ⟨{ bridge with channel := rest, running := false }, []⟩ := by
      simp only [work, ClickhouseBridge.write, result]
      rfl
    rw [ends]
    exact ⟨consumed, .ended rfl rest msg split converted result (List.append_nil _)⟩

/-- An input of the bridge. -/
theorem Progress.next {messages : List NormalizedMessage} {attempted : List (Row × Bool)}
    {bridge : ClickhouseBridge} {consumed : List (NormalizedMessage × Bool)}
    (progress : Progress messages attempted bridge consumed) (input : BridgeInput) :
    ∃ consumed', Progress (messages ++ input.message?.toList)
      (attempted ++ insertions (machine.answer bridge input)) (machine.next bridge input)
        consumed' := by
  change ∃ consumed', Progress _ (attempted ++ insertions (handle input ⟨bridge, []⟩).effects)
    (handle input ⟨bridge, []⟩).state consumed'
  unfold handle
  cases progress with
  | ended dead rest fatal split converted panicked tried =>
    simp only [dead, Bool.false_eq_true, if_false]
    refine ⟨consumed, .ended dead (rest ++ input.message?.toList) fatal ?_ converted panicked ?_⟩
    · rw [split, List.append_assoc]
      rfl
    · rw [tried]
      exact List.append_nil _
  | going alive split converted tried =>
    simp only [alive, if_true]
    cases input with
    | fragment bytes =>
      refine ⟨consumed, .going alive ?_ converted (tried ▸ List.append_nil _)⟩
      rw [split, List.append_assoc]
      rfl
    | flushTick =>
      refine ⟨consumed, .going alive ?_ converted (tried ▸ List.append_nil _)⟩
      rw [split]
      exact List.append_nil _
    | receive taken =>
      have quiet : messages ++ (BridgeInput.receive taken).message?.toList = messages :=
        List.append_nil _
      rw [quiet, tried]
      simp only [onReceive]
      cases waiting : bridge.channel with
      | nil => exact ⟨consumed, .going alive split converted (List.append_nil _)⟩
      | cons msg rest => exact Progress.write alive (waiting ▸ split) converted taken

/-- A run of the bridge. -/
theorem Progress.run {messages : List NormalizedMessage} {attempted : List (Row × Bool)}
    {bridge : ClickhouseBridge} {consumed : List (NormalizedMessage × Bool)}
    (progress : Progress messages attempted bridge consumed) (inputs : List BridgeInput) :
    ∃ consumed', Progress (messages ++ inputs.filterMap BridgeInput.message?)
      (attempted ++ insertions (machine.effects bridge inputs)) (machine.final bridge inputs)
        consumed' := by
  induction inputs generalizing bridge messages attempted consumed with
  | nil =>
    rw [List.filterMap_nil, List.append_nil, Machine.effects_nil]
    exact ⟨consumed, (List.append_nil attempted).symm ▸ progress⟩
  | cons input rest ih =>
    obtain ⟨consumed', step⟩ := progress.next input
    have later := ih step
    have first : (input :: rest).filterMap BridgeInput.message? =
        input.message?.toList ++ rest.filterMap BridgeInput.message? := by
      rw [List.filterMap_cons]
      cases input.message? <;> rfl
    rw [first, Machine.effects_cons, insertions_append, ← List.append_assoc, ← List.append_assoc]
    exact later

private theorem progress_start : Progress [] [] start [] := .going rfl rfl (by simp) rfl

/-- After every run of the bridge it has tried to insert the rows of a front part of the messages it
has decoded, in their order and once each, and the rows that are in are those that the inserter
took. While the bridge is running it holds the rest; it ends when a message comes first whose scale
cannot be rescaled. -/
theorem rows_inserted (inputs : List BridgeInput) :
    ∃ consumed, Progress (inputs.filterMap BridgeInput.message?)
        (insertions (machine.effects start inputs)) (machine.final start inputs) consumed ∧
      rows (machine.effects start inputs) = rowsOf (accepted consumed) := by
  obtain ⟨consumed, progress⟩ := progress_start.run inputs
  rw [List.nil_append, List.nil_append] at progress
  exact ⟨consumed, progress, rows_of_attempts progress.attempts_eq⟩

/-! ## Rows of a connector -/

private theorem message?_eq (input : BridgeInput) : input.message? =
    input.fragment?.bind fun bytes => (NormalizedMessage.fromBytes bytes).toOption := by
  cases input with
  | fragment bytes =>
    rw [BridgeInput.message?]
    split
    · next short =>
      rw [BridgeInput.fragment?, Option.bind_some, NormalizedMessage.fromBytes,
        MessageHeader.decode_short short]
      rfl
    · rfl
  | flushTick | receive => rfl

/-- The messages of some fragments, of those that decode. -/
def decoded (fragments : List (List UInt8)) : List NormalizedMessage :=
  fragments.filterMap fun bytes => (NormalizedMessage.fromBytes bytes).toOption

private theorem decoded_fragments (inputs : List BridgeInput) :
    inputs.filterMap BridgeInput.message? = decoded (inputs.filterMap BridgeInput.fragment?) := by
  rw [decoded, List.filterMap_filterMap]
  exact congrArg (inputs.filterMap ·) (funext message?_eq)

/-- The messages of a source are those of its fragments. -/
private theorem decoded_filter (source : Source) (fragments : List (List UInt8)) :
    (decoded fragments).filter source.sends = decoded (fragments.filter source.selects) := by
  rw [decoded, decoded, List.filter_filterMap, List.filterMap_filter]
  congr 1
  funext bytes
  rw [Source.selects]
  cases (NormalizedMessage.fromBytes bytes).toOption with
  | none => rfl
  | some msg => cases sent : source.sends msg <;> simp [Option.filter, sent]

private theorem decoded_append (first second : List (List UInt8)) :
    decoded (first ++ second) = decoded first ++ decoded second := List.filterMap_append

/-- What is decoded of deliveries are messages that they carry, in their order. -/
private theorem decoded_of_carries {msgs : List NormalizedMessage} {deliveries : List Delivery}
    (carries : List.Forall₂ Connector.Carries msgs deliveries) :
    (decoded (deliveries.filterMap Delivery.fragment?)).Sublist msgs := by
  have kept := (Connector.received_sublist carries).filterMap Except.toOption
  rw [List.filterMap_map, List.filterMap_map] at kept
  have whole (msgs : List NormalizedMessage) :
      msgs.filterMap (Except.toOption ∘ (.ok : NormalizedMessage → Except Error _)) = msgs :=
    List.filterMap_some
  rwa [whole] at kept

/-- What a subscriber decodes of a source, the source has made, in this order. -/
private theorem decoded_sublist (settings : Settings) (source : Source)
    (events : List (Σ source : Source, source.Input)) :
    ((decoded ((settings.connector.effects settings.start events).filterMap
        Delivery.fragment?)).filter source.sends).Sublist
      ((settings.member source).log (settings.made source) (settings.start source)
        (Machine.inputsOf source events)) := by
  have alone := settings.receivedFrom_connector source events
  rw [decoded_filter]
  change (decoded (Connector.receivedFrom source _)).Sublist _
  rw [alone]
  exact decoded_of_carries (settings.account_run source (Machine.inputsOf source events)).2

/-- Every message of the tasks is attributed to a source. -/
private theorem exists_sends (settings : Settings)
    (events : List (Σ source : Source, source.Input)) :
    ∀ msg ∈ decoded ((settings.connector.effects settings.start events).filterMap
      Delivery.fragment?), ∃ source : Source, source.sends msg = true := by
  intro msg member
  obtain ⟨bytes, inside, decodes⟩ := List.mem_filterMap.mp member
  obtain ⟨delivery, published, received⟩ := List.mem_filterMap.mp inside
  rw [Machine.effects_eq_log] at published
  obtain ⟨event, -, answered⟩ := List.mem_flatMap.mp published
  have choice := settings.selects_step event.input.1 event.input.1 (event.before event.input.1)
    event.input.2 answered received
  rw [Source.selects, decodes] at choice
  exact ⟨event.input.1, choice.trans (decide_eq_true rfl)⟩

/-- The message is the definition of an instrument. -/
def isDefinition (msg : NormalizedMessage) : Bool := msg.messageType = .instrumentDefinition

private theorem isDefinition_of_sends {source : Source} {msg : NormalizedMessage}
    (sent : source.sends msg = true) : isDefinition msg = false := by
  refine decide_eq_false fun kind => ?_
  cases source with
  | connection id =>
    have data := (of_decide_eq_true sent).2
    rw [kind] at data
    exact absurd data (by decide)
  | poller =>
    have other : msg.messageType = .openInterest := of_decide_eq_true sent
    rw [kind] at other
    cases other

/-- Everything that a connector publishes, from its startup on. -/
def published (settings : Settings) (recvTs : Int64) (listings : List Listing)
    (events : List (Σ source : Source, source.Input)) : List (List UInt8) :=
  (Connector.startup settings.imap recvTs listings).filterMap Delivery.fragment? ++
    (settings.connector.effects settings.start events).filterMap Delivery.fragment?

/-- The messages of a connector's stream: definitions that it has published at startup, and messages
that its sources have made, each in their order. -/
structure Genuine (settings : Settings) (recvTs : Int64) (listings : List Listing)
    (events : List (Σ source : Source, source.Input)) (msgs : List NormalizedMessage) :
    Prop where
  origin : ∀ msg ∈ msgs, isDefinition msg = true ∨ ∃ source : Source, source.sends msg = true
  startup : (msgs.filter isDefinition).Sublist
    (Connector.definitions settings.imap recvTs listings)
  sources : ∀ source : Source, (msgs.filter source.sends).Sublist
    ((settings.member source).log (settings.made source) (settings.start source)
      (Machine.inputsOf source events))

/-- The whole stream is genuine, and so is what a subscriber sees of it. -/
theorem genuine_of_sublist {settings : Settings}
    (announced : ∀ symbol inst, settings.imap symbol = some inst →
      inst.header.messageType = .instrumentDefinition) {recvTs : Int64}
    {listings : List Listing} {events : List (Σ source : Source, source.Input)}
    {msgs : List NormalizedMessage}
    (seen : msgs.Sublist (decoded (published settings recvTs listings events))) :
    Genuine settings recvTs listings events msgs := by
  rw [published, decoded_append] at seen
  have defined : (decoded ((Connector.startup settings.imap recvTs listings).filterMap
      Delivery.fragment?)).Sublist (Connector.definitions settings.imap recvTs listings) :=
    decoded_of_carries (Connector.publishDefinitions_carries announced listings _)
  have silent (source : Source) : (decoded ((Connector.startup settings.imap recvTs
      listings).filterMap Delivery.fragment?)).filter source.sends = [] := by
    refine List.filter_eq_nil_iff.mpr fun msg member => ?_
    rw [Connector.sends_definition source msg (defined.subset member)]
    exact Bool.false_ne_true
  have others : (decoded ((settings.connector.effects settings.start events).filterMap
      Delivery.fragment?)).filter isDefinition = [] := by
    refine List.filter_eq_nil_iff.mpr fun msg member => ?_
    obtain ⟨source, sent⟩ := exists_sends settings events msg member
    rw [isDefinition_of_sends sent]
    exact Bool.false_ne_true
  refine ⟨fun msg member => ?_, ?_, fun source => ?_⟩
  · rcases List.mem_append.mp (seen.subset member) with first | later
    · exact .inl (decide_eq_true (Connector.messageType_definition msg (defined.subset first)))
    · exact .inr (exists_sends settings events msg later)
  · have kept := seen.filter isDefinition
    rw [List.filter_append, others, List.append_nil] at kept
    exact kept.trans (List.filter_sublist.trans defined)
  · have kept := seen.filter source.sends
    rw [List.filter_append, silent, List.nil_append] at kept
    exact kept.trans (decoded_sublist settings source events)

/-- From the frames to the tables: when the bridge sees fragments of a connector, some lost but none
made up, the rows that were inserted are the rows of definitions that the connector has published at
startup and of messages that its sources have made, in the order in which each has made them. -/
theorem rows_of_stream {settings : Settings}
    (announced : ∀ symbol inst, settings.imap symbol = some inst →
      inst.header.messageType = .instrumentDefinition) {recvTs : Int64}
    {listings : List Listing} {events : List (Σ source : Source, source.Input)}
    {inputs : List BridgeInput}
    (polled : (inputs.filterMap BridgeInput.fragment?).Sublist
      (published settings recvTs listings events)) :
    ∃ msgs, rows (machine.effects start inputs) = rowsOf msgs ∧
      Genuine settings recvTs listings events msgs := by
  have seen : (decoded (inputs.filterMap BridgeInput.fragment?)).Sublist _ := polled.filterMap _
  rw [← decoded_fragments] at seen
  obtain ⟨consumed, progress⟩ := progress_start.run inputs
  rw [List.nil_append, List.nil_append] at progress
  have front := progress.front.sublist
  exact ⟨accepted consumed, rows_of_attempts progress.attempts_eq,
    genuine_of_sublist announced (((accepted_sublist consumed).trans front).trans seen)⟩

def perpetuals : Settings :=
  ⟨.binanceFutures, .usdmFutures, 0,
    fun symbol => if symbol = "BTCUSDT" then some (Normalize.bitcoin .binanceFutures .usdmFutures)
      else none, 500⟩

/-- One answer of the exchange to the open interest poller. -/
def answered (openInterest : String) (timeMs : Int64) : Σ source : Source, source.Input :=
  ⟨.poller, ⟨Normalize.bitcoin .binanceFutures .usdmFutures, some ⟨openInterest, timeMs⟩, 8, 9,
    .ok 64⟩⟩

/-- The definition of the instrument and two answers, with a connection in between. -/
def launched : List (List UInt8) :=
  published perpetuals 5 [⟨"BTCUSDT", 6, .ok 64⟩, ⟨"ETHUSDT", 6, .ok 64⟩]
    [answered "1.5" 7, ⟨.connection 1, .connected⟩, answered "1.75" 9]

/-- The bridge misses the first of the fragments and takes two of the messages, the second of them
too slowly. -/
def mostlyPolled : List BridgeInput :=
  launched.tail.map .fragment ++ [.receive true, .flushTick, .receive false]

theorem rows_of_stream_mostlyPolled :
    ∃ msgs, rows (machine.effects start mostlyPolled) = rowsOf msgs ∧
      Genuine perpetuals 5 [⟨"BTCUSDT", 6, .ok 64⟩, ⟨"ETHUSDT", 6, .ok 64⟩]
        [answered "1.5" 7, ⟨.connection 1, .connected⟩, answered "1.75" 9] msgs := by
  refine rows_of_stream (fun symbol inst known => ?_) ?_
  · change (if symbol = "BTCUSDT" then _ else none) = some inst at known
    split at known
    · exact Option.some.inj known ▸ rfl
    · cases known
  · have seen : mostlyPolled.filterMap BridgeInput.fragment? = launched.tail := by
      rw [mostlyPolled, List.filterMap_append, List.filterMap_map]
      exact (List.append_nil _).trans List.filterMap_some
    rw [seen]
    exact List.tail_sublist launched

end ClickhouseBridge

end TradingConnectivity.Bridge
