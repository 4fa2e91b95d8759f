import TradingConnectivity.Gateway.Instance
import TradingConnectivity.ToMathlib.Overwrite

/-! # The ids in use

The generator of a gateway stays ahead of every id that is in use: of the ids it returned, of the
orders it tracks and of the requests in its journal (`Sound`). A restart that can read its file
finds the requests of all returned ids in it and moves the new generator past them.
-/

namespace TradingConnectivity.Gateway

/-! ## Issued ids -/

namespace ClientOrderIdGenerator

/-- The id has been generated by this generator before. -/
def Issued (generator : ClientOrderIdGenerator) (id : ClientOrderId) : Prop :=
  ∃ counter < generator.counter,
    id = (ClientOrderIdGenerator.mk generator.instanceId counter).generate.1

variable {generator : ClientOrderIdGenerator} {id : ClientOrderId}

theorem Issued.short (issued : generator.Issued id) : id.asStr.utf8ByteSize ≤ 255 := by
  obtain ⟨counter, -, rfl⟩ := issued
  exact generate_utf8ByteSize _

theorem Issued.parseCounter (issued : generator.Issued id) :
    ∃ counter < generator.counter, id.parseCounter = some counter := by
  obtain ⟨counter, below, rfl⟩ := issued
  exact ⟨counter, below, parseCounter_generate _⟩

/-- The next id is none of those before it. -/
private theorem not_issued_generate (generator : ClientOrderIdGenerator) :
    ¬generator.Issued generator.generate.1 := by
  intro issued
  obtain ⟨counter, below, parsed⟩ := issued.parseCounter
  rw [parseCounter_generate] at parsed
  exact absurd (Option.some.inj parsed) (UInt64.ne_of_lt below).symm

theorem Issued.generate (issued : generator.Issued id)
    (room : generator.counter.toNat + 1 < 2 ^ 64) : generator.generate.2.Issued id := by
  obtain ⟨counter, below, rfl⟩ := issued
  refine ⟨counter, ?_, rfl⟩
  rw [UInt64.lt_iff_toNat_lt] at below ⊢
  have next : generator.generate.2.counter.toNat = generator.counter.toNat + 1 :=
    UInt64.toNat_succ room
  omega

private theorem issued_generate (room : generator.counter.toNat + 1 < 2 ^ 64) :
    generator.generate.2.Issued generator.generate.1 := by
  refine ⟨generator.counter, ?_, rfl⟩
  have next : generator.generate.2.counter.toNat = generator.counter.toNat + 1 :=
    UInt64.toNat_succ room
  rw [UInt64.lt_iff_toNat_lt]
  omega

private theorem withStartAfter_counter (instanceId : UInt32) {lastCounter : UInt64}
    (room : lastCounter.toNat + 1 < 2 ^ 64) :
    (withStartAfter instanceId lastCounter).counter.toNat = lastCounter.toNat + 1 := by
  have below : lastCounter ≠ -1 := by
    rintro rfl
    exact absurd room (by decide)
  rw [withStartAfter, if_neg below]
  exact UInt64.toNat_succ room

end ClientOrderIdGenerator

/-! ## The replay loop -/

namespace JournalEntry

/-- The entry records a request for this id. -/
def Requests (entry : JournalEntry) (id : ClientOrderId) : Prop :=
  entry.tag = .requested ∧ entry.cloid = id

private theorem Alike.requests_iff {entry decoded : JournalEntry} (alike : entry.Alike decoded)
    (id : ClientOrderId) : decoded.Requests id ↔ entry.Requests id := by
  rw [Requests, Requests, alike.1, alike.2]

/-- Entries that are alike one by one request the same ids. -/
private theorem exists_requests_iff {entries decoded : List JournalEntry}
    (alike : List.Forall₂ Alike entries decoded) (id : ClientOrderId) :
    (∃ entry ∈ decoded, entry.Requests id) ↔ ∃ entry ∈ entries, entry.Requests id := by
  induction alike with
  | nil => exact Iff.rfl
  | cons first rest ih =>
    rw [List.exists_mem_cons_iff, List.exists_mem_cons_iff, first.requests_iff, ih]

end JournalEntry

namespace OrderGateway

/-- The highest counter after one more. -/
theorem raised_spec (maxCounter : Option UInt64) (counter : UInt64) :
    (maxCounter.elim counter (max · counter) = counter ∨
        maxCounter = some (maxCounter.elim counter (max · counter))) ∧
      counter ≤ maxCounter.elim counter (max · counter) ∧
      ∀ most, maxCounter = some most → most ≤ maxCounter.elim counter (max · counter) := by
  cases maxCounter with
  | none => exact ⟨.inl rfl, UInt64.le_refl counter, nofun⟩
  | some known =>
    have value : (some known).elim counter (max · counter) =
        if known ≤ counter then counter else known := rfl
    rw [value]
    split
    next below =>
      refine ⟨.inl rfl, UInt64.le_refl counter, ?_⟩
      rintro _ ⟨⟩
      exact below
    next above =>
      refine ⟨.inr rfl, UInt64.le_of_lt (UInt64.not_le.mp above), ?_⟩
      rintro _ ⟨⟩
      exact UInt64.le_refl known

/-- What the replay loop has collected from the entries it has seen. -/
structure Collected (seen : List JournalEntry) (orders : Orders) (maxCounter : Option UInt64) :
    Prop where
  keys : ∀ id order, orders[id]? = some order → ∃ entry ∈ seen, entry.Requests id
  attained : ∀ counter, maxCounter = some counter → ∃ entry ∈ seen, ∃ id, entry.Requests id ∧
    id.parseCounter = some counter
  bound : ∀ entry ∈ seen, ∀ id, entry.Requests id → ∀ counter, id.parseCounter = some counter →
    ∃ most, maxCounter = some most ∧ counter ≤ most

private theorem updateLive_keys {orders : Orders} {cloid id : ClientOrderId}
    {update : PendingOrder → PendingOrder} {order : PendingOrder}
    (found : (updateLive orders cloid update)[id]? = some order) :
    ∃ known, orders[id]? = some known := by
  unfold updateLive at found
  split at found
  · exact ⟨order, found⟩
  next known own =>
  split at found
  · exact ⟨order, found⟩
  · rcases of_getElem?_insert found with ⟨rfl, -⟩ | stored
    · exact ⟨known, own⟩
    · exact ⟨order, stored⟩

namespace Collected

variable {seen : List JournalEntry} {orders : Orders} {maxCounter : Option UInt64}

/-- An entry that is no request. -/
theorem other (collected : Collected seen orders maxCounter) {entry : JournalEntry}
    (tag : entry.tag ≠ .requested) (cloid : ClientOrderId)
    (update : PendingOrder → PendingOrder) :
    Collected (seen ++ [entry]) (updateLive orders cloid update) maxCounter where
  keys id order found := by
    obtain ⟨known, found⟩ := updateLive_keys found
    obtain ⟨request, member, requests⟩ := collected.keys id known found
    exact ⟨request, List.mem_append_left _ member, requests⟩
  attained counter most := by
    obtain ⟨request, member, requests⟩ := collected.attained counter most
    exact ⟨request, List.mem_append_left _ member, requests⟩
  bound request member id requests := by
    rcases List.mem_append.mp member with before | last
    · exact collected.bound request before id requests
    · obtain rfl := List.mem_singleton.mp last
      exact absurd requests.1 tag

/-- A request tracks its order and raises the counter. -/
theorem request (collected : Collected seen orders maxCounter) (timestampNs : Int64)
    (cloid : ClientOrderId) (request : OrderRequest) :
    Collected (seen ++ [.orderRequested timestampNs cloid request])
      (orders.insert cloid (pendingOrder cloid request timestampNs))
      (match cloid.parseCounter with
        | none => maxCounter
        | some counter => some (maxCounter.elim counter (max · counter))) where
  keys id order found := by
    rcases of_getElem?_insert found with ⟨rfl, -⟩ | stored
    · exact ⟨_, List.mem_append_right _ List.mem_cons_self, rfl, rfl⟩
    · obtain ⟨entry, member, requests⟩ := collected.keys id order stored
      exact ⟨entry, List.mem_append_left _ member, requests⟩
  attained counter most := by
    have earlier (known : maxCounter = some counter) :
        ∃ entry ∈ seen ++ [.orderRequested timestampNs cloid request], ∃ id, entry.Requests id ∧
          id.parseCounter = some counter := by
      obtain ⟨entry, member, requests⟩ := collected.attained counter known
      exact ⟨entry, List.mem_append_left _ member, requests⟩
    split at most
    · exact earlier most
    next own parsed =>
      rcases (raised_spec maxCounter own).1 with same | known
      · rw [same] at most
        obtain rfl := Option.some.inj most
        exact ⟨_, List.mem_append_right _ List.mem_cons_self, cloid, ⟨rfl, rfl⟩, parsed⟩
      · exact earlier (known.trans most)
  bound entry member id requests counter parsed := by
    rcases List.mem_append.mp member with before | last
    · obtain ⟨most, known, below⟩ := collected.bound entry before id requests counter parsed
      split
      · exact ⟨most, known, below⟩
      next own parsed =>
        exact ⟨_, rfl, UInt64.le_trans below ((raised_spec maxCounter own).2.2 most known)⟩
    · obtain rfl := List.mem_singleton.mp last
      obtain ⟨-, rfl⟩ := requests
      have own : cloid.parseCounter = some counter := parsed
      rw [own]
      exact ⟨_, rfl, (raised_spec maxCounter counter).2.1⟩

theorem step (collected : Collected seen orders maxCounter) (entry : JournalEntry) :
    Collected (seen ++ [entry]) (replayEntry (orders, maxCounter) entry).1
      (replayEntry (orders, maxCounter) entry).2 := by
  cases entry with
  | orderRequested timestampNs cloid request => exact collected.request timestampNs cloid request
  | _ => exact collected.other (by rintro ⟨⟩) _ _

end Collected

/-- A recovered generator belongs to the instance. -/
private theorem replayJournal_instanceId (gw : OrderGateway) (entries : List JournalEntry)
    (own : gw.cloidGen.instanceId = gw.instanceId) :
    (gw.replayJournal entries).cloidGen.instanceId = (gw.replayJournal entries).instanceId := by
  have generator : (gw.replayJournal entries).cloidGen =
      (entries.foldl replayEntry (gw.orders, none)).2.elim gw.cloidGen
        (.withStartAfter gw.instanceId) := rfl
  rw [generator]
  cases (entries.foldl replayEntry (gw.orders, none)).2 with
  | none => exact own
  | some counter => rfl

private theorem collected_foldl (entries : List JournalEntry) :
    Collected entries (entries.foldl replayEntry (∅, none)).1
      (entries.foldl replayEntry (∅, none)).2 := by
  induction entries using List.reverseRecOn with
  | nil => exact ⟨by simp, nofun, nofun⟩
  | append_singleton entries entry ih =>
    rw [List.foldl_append]
    exact ih.step entry

end OrderGateway

/-! ## Between the steps of an instance -/

namespace OrderGateway

variable {gw : OrderGateway} {op : GatewayOp} {cloid : ClientOrderId}

/-- The entry of a lifecycle call is about its order and no request. -/
theorem journaled_about {entry : JournalEntry} (journaled : gw.journaled op = some entry)
    (named : op.about = some cloid) : entry.cloid = cloid ∧ entry.tag ≠ .requested := by
  cases op with
  | enqueue request nowNs => cases named
  | onAck id exchangeId nowNs =>
    obtain rfl := Option.some.inj named
    obtain ⟨order, -, made⟩ := Option.bind_eq_some_iff.mp journaled
    split at made
    · cases made
    · obtain rfl := Option.some.inj made
      exact ⟨rfl, by rintro ⟨⟩⟩
  | onFill id | onCancel id | onReject id | onExpire id =>
    obtain rfl := Option.some.inj named
    obtain ⟨order, -, rfl⟩ := Option.map_eq_some_iff.mp journaled
    exact ⟨rfl, by rintro ⟨⟩⟩

/-- A lifecycle call returns no id. -/
private theorem exec_silent (named : op.about = some cloid) :
    (gw.exec op).1.toOption.join = none := by
  have silent (result : Except Error Unit) :
      (result.map fun _ => (none : Option ClientOrderId)).toOption.join = none := by
    cases result <;> rfl
  cases op with
  | enqueue request nowNs => cases named
  | _ => exact silent _

/-- A lifecycle call leaves the generator alone. -/
private theorem exec_cloidGen (named : op.about = some cloid) :
    (gw.exec op).2.cloidGen = gw.cloidGen := by
  cases heeded : gw.heeded? op with
  | none => rw [(exec_ignored named heeded).2]
  | some order =>
    obtain ⟨cloid, entry, -, -, -, committed⟩ := exec_heeded heeded
    rw [committed]
    rfl

private theorem enqueue_cloidGen (gw : OrderGateway) (request : OrderRequest) (nowNs : Int64) :
    (gw.enqueue request nowNs).2.cloidGen = gw.cloidGen.generate.2 := by
  rcases appended : gw.journal.append (.orderRequested nowNs gw.cloidGen.generate.1 request) with
    ⟨result, journal⟩
  cases result <;> simp only [enqueue, appended]

private theorem exec_enqueue_answer (gw : OrderGateway) (request : OrderRequest) (nowNs : Int64) :
    (gw.exec (.enqueue request nowNs)).1.toOption.join =
      (gw.enqueue request nowNs).1.toOption := by
  have answer (result : Except Error ClientOrderId) :
      (result.map some).toOption.join = result.toOption := by
    cases result <;> rfl
  exact answer _

end OrderGateway

/-- The records of these entries are in the journal, at least those of the durable ones in its
file, and the generator is ahead of every id in use. -/
structure Sound (returned : List ClientOrderId) (gw : OrderGateway)
    (durable entries : List JournalEntry) : Prop where
  generator : gw.cloidGen.instanceId = gw.instanceId
  holds : gw.journal.Holds durable entries
  earlier : durable <+: entries
  framed : ∀ entry ∈ entries, entry.Framed
  requests : ∀ entry ∈ entries, ∀ id, entry.Requests id → gw.cloidGen.Issued id
  keys : ∀ id order, gw.orders[id]? = some order → gw.cloidGen.Issued id
  returned : ∀ id ∈ returned, ∃ entry ∈ durable, entry.Requests id

namespace Sound

variable {returned : List ClientOrderId} {gw : OrderGateway} {durable entries : List JournalEntry}

/-- A new gateway over a new file. -/
theorem fresh (instanceId : UInt32) (script : List IoOutcome) :
    Sound [] (.fresh instanceId ⟨.file [] [] script⟩) [] [] where
  generator := rfl
  holds := ⟨rfl, List.nil_prefix⟩
  earlier := List.prefix_rfl
  framed _ member := absurd member List.not_mem_nil
  requests _ member := absurd member List.not_mem_nil
  keys id order found := by
    have absent : (OrderGateway.fresh instanceId ⟨.file [] [] script⟩).orders[id]? = none :=
      Std.ExtTreeMap.getElem?_empty
    rw [absent] at found
    cases found
  returned _ member := absurd member List.not_mem_nil

theorem issued (sound : Sound returned gw durable entries) {id : ClientOrderId}
    (member : id ∈ returned) : gw.cloidGen.Issued id := by
  obtain ⟨entry, inside, requests⟩ := sound.returned id member
  exact sound.requests entry (sound.earlier.subset inside) id requests

/-- The generator after a restart is ahead of all requests that were read, and not ahead of the one
before. -/
theorem replayed_generator (sound : Sound returned gw durable entries)
    {decoded : List JournalEntry} {k : ℕ}
    (alike : List.Forall₂ JournalEntry.Alike (entries.take k) decoded) (journal : Journal) :
    (∀ entry ∈ entries.take k, ∀ id, entry.Requests id →
      ((OrderGateway.fresh gw.instanceId journal).replayJournal decoded).cloidGen.Issued id) ∧
    ((OrderGateway.fresh gw.instanceId journal).replayJournal decoded).cloidGen.counter.toNat ≤
      gw.cloidGen.counter.toNat := by
  have collected := OrderGateway.collected_foldl decoded
  have generator : ((OrderGateway.fresh gw.instanceId journal).replayJournal decoded).cloidGen =
      (decoded.foldl OrderGateway.replayEntry (∅, none)).2.elim (.new gw.instanceId)
        (.withStartAfter gw.instanceId) := rfl
  have issued : ∀ entry ∈ entries.take k, ∀ id, entry.Requests id → gw.cloidGen.Issued id :=
    fun entry member => sound.requests entry (List.mem_of_mem_take member)
  rw [generator]
  generalize (decoded.foldl OrderGateway.replayEntry (∅, none)).2 = maxCounter at collected ⊢
  have counted {entry : JournalEntry} {id : ClientOrderId} (member : entry ∈ entries.take k)
      (requests : entry.Requests id) : ∃ counter most, maxCounter = some most ∧
        counter ≤ most ∧
        id = (ClientOrderIdGenerator.mk gw.cloidGen.instanceId counter).generate.1 := by
    obtain ⟨counter, -, rfl⟩ := issued entry member id requests
    obtain ⟨entry, member, requests⟩ :=
      (JournalEntry.exists_requests_iff alike _).mpr ⟨entry, member, requests⟩
    obtain ⟨most, found, below⟩ :=
      collected.bound entry member _ requests counter (parseCounter_generate _)
    exact ⟨counter, most, found, below, rfl⟩
  cases maxCounter with
  | none =>
    refine ⟨fun entry member id requests => ?_, Nat.zero_le _⟩
    obtain ⟨_, _, ⟨⟩, -⟩ := counted member requests
  | some most =>
    obtain ⟨entry, member, id, requests, parsed⟩ := collected.attained most rfl
    obtain ⟨entry, member, requests⟩ :=
      (JournalEntry.exists_requests_iff alike id).mp ⟨entry, member, requests⟩
    obtain ⟨counter, below, own⟩ := (issued entry member id requests).parseCounter
    obtain rfl := Option.some.inj (parsed.symm.trans own)
    rw [UInt64.lt_iff_toNat_lt] at below
    have bound := gw.cloidGen.counter.toNat_lt
    have room : most.toNat + 1 < 2 ^ 64 := by omega
    have next := ClientOrderIdGenerator.withStartAfter_counter gw.instanceId room
    refine ⟨fun entry member id requests => ?_, next.trans_le below⟩
    obtain ⟨counter, _, ⟨⟩, le, rfl⟩ := counted member requests
    refine ⟨counter, ?_, by rw [sound.generator]; rfl⟩
    rw [UInt64.le_iff_toNat_le] at le
    rw [Option.elim_some, UInt64.lt_iff_toNat_lt, next]
    omega

/-- What the file decodes to is sound again, with nothing left in the buffer. -/
theorem restart (sound : Sound returned gw durable entries) (script : List IoOutcome)
    {flushed : ℕ} {decoded : List JournalEntry}
    (decodes : decodeAll (gw.journal.left flushed) = .ok decoded) {after : OrderGateway}
    (opened : after = (OrderGateway.fresh gw.instanceId
      ⟨.file (gw.journal.left flushed) [] script⟩).replayJournal decoded) :
    ∃ kept, Sound returned after kept kept ∧
      after.cloidGen.counter.toNat ≤ gw.cloidGen.counter.toNat := by
  subst opened
  obtain ⟨cut, safe⟩ := Journal.left_prefix sound.holds flushed
  have atStart : (gw.journal.left flushed).drop 0 <+: entries.flatMap encodeEntry := cut
  obtain ⟨k, whole, alike⟩ := decodeLoop_alike sound.framed atStart le_rfl decodes
  rw [List.drop_zero] at whole
  obtain ⟨issued, behind⟩ := sound.replayed_generator alike
    ⟨.file (gw.journal.left flushed) [] script⟩
  have longer : durable <+: entries.take k :=
    Journal.prefix_of_records sound.earlier (List.take_prefix k entries) (whole ▸ safe)
  refine ⟨entries.take k, ⟨?_, ⟨(List.append_nil _).trans whole, whole ▸ List.prefix_rfl⟩,
    List.prefix_rfl, fun entry member => sound.framed entry (List.mem_of_mem_take member), issued,
    ?_, ?_⟩, behind⟩
  · exact OrderGateway.replayJournal_instanceId _ decoded rfl
  · intro id order found
    obtain ⟨entry, member, requests⟩ :=
      (OrderGateway.collected_foldl decoded).keys id order found
    obtain ⟨entry, member, requests⟩ :=
      (JournalEntry.exists_requests_iff alike id).mp ⟨entry, member, requests⟩
    exact issued entry member id requests
  · intro id member
    obtain ⟨entry, inside, requests⟩ := sound.returned id member
    exact ⟨entry, longer.subset inside, requests⟩

/-- A step that appends an entry and keeps the generator ahead. -/
theorem grow (sound : Sound returned gw durable entries) {entry : JournalEntry}
    (framed : entry.Framed) (whole : ¬gw.journal.Tears entry) {after : OrderGateway}
    (journal : after.journal = (gw.journal.append entry).2)
    (generator : after.cloidGen.instanceId = after.instanceId)
    (ahead : ∀ id, gw.cloidGen.Issued id → after.cloidGen.Issued id)
    (own : ∀ id, entry.Requests id → after.cloidGen.Issued id)
    (keys : ∀ id order, after.orders[id]? = some order → after.cloidGen.Issued id) :
    ∃ durable entries, Sound returned after durable entries ∧
      ((gw.journal.append entry).1 = .ok () → entry ∈ durable) := by
  have framed' : ∀ e ∈ entries ++ [entry], e.Framed := by
    intro e member
    rcases List.mem_append.mp member with before | last
    · exact sound.framed e before
    · rw [List.mem_singleton.mp last]
      exact framed
  have requests : ∀ e ∈ entries, ∀ id, e.Requests id → after.cloidGen.Issued id :=
    fun e member id requests => ahead id (sound.requests e member id requests)
  have requests' : ∀ e ∈ entries ++ [entry], ∀ id, e.Requests id → after.cloidGen.Issued id := by
    intro e member
    rcases List.mem_append.mp member with before | last
    · exact requests e before
    · rw [List.mem_singleton.mp last]
      exact own
  rcases Journal.append_holds sound.holds whole with ⟨-, holds⟩ | ⟨⟨e, failed⟩, holds | holds⟩
  · refine ⟨entries ++ [entry], entries ++ [entry], ⟨generator, journal ▸ holds, List.prefix_rfl,
      framed', requests', keys, fun id member => ?_⟩,
      fun _ => List.mem_append_right _ List.mem_cons_self⟩
    obtain ⟨e, inside, requests⟩ := sound.returned id member
    exact ⟨e, List.mem_append_left _ (sound.earlier.subset inside), requests⟩
  · refine ⟨durable, entries, ⟨generator, journal ▸ holds, sound.earlier, sound.framed, requests,
      keys, sound.returned⟩, fun written => ?_⟩
    rw [failed] at written
    cases written
  · refine ⟨durable, entries ++ [entry], ⟨generator, journal ▸ holds,
      sound.earlier.trans (List.prefix_append _ _), framed', requests', keys, sound.returned⟩,
      fun written => ?_⟩
    rw [failed] at written
    cases written

/-- Issuing an id. -/
theorem enqueue (sound : Sound returned gw durable entries) (request : OrderRequest)
    (nowNs : Int64) (room : gw.cloidGen.counter.toNat + 1 < 2 ^ 64)
    (framed : (JournalEntry.orderRequested nowNs gw.cloidGen.generate.1 request).Framed)
    (whole : ¬gw.journal.Tears (.orderRequested nowNs gw.cloidGen.generate.1 request)) :
    ∃ durable entries, Sound (returned ++ (gw.enqueue request nowNs).1.toOption.toList)
      (gw.enqueue request nowNs).2 durable entries := by
  have ahead : ∀ id, gw.cloidGen.Issued id → gw.cloidGen.generate.2.Issued id :=
    fun id issued => issued.generate room
  have own := ClientOrderIdGenerator.issued_generate room
  have requested : ∀ id,
      (JournalEntry.orderRequested nowNs gw.cloidGen.generate.1 request).Requests id →
        gw.cloidGen.generate.2.Issued id := by
    rintro id ⟨-, rfl⟩
    exact own
  have old : ∀ id order, gw.orders[id]? = some order → gw.cloidGen.generate.2.Issued id :=
    fun id order found => ahead id (sound.keys id order found)
  have grown (orders : Orders) (keys : ∀ id order, orders[id]? = some order →
      gw.cloidGen.generate.2.Issued id) :
      ∃ durable entries, Sound returned ⟨gw.instanceId, gw.cloidGen.generate.2,
          (gw.journal.append (.orderRequested nowNs gw.cloidGen.generate.1 request)).2, orders⟩
          durable entries ∧
        ((gw.journal.append (.orderRequested nowNs gw.cloidGen.generate.1 request)).1 = .ok () →
          .orderRequested nowNs gw.cloidGen.generate.1 request ∈ durable) :=
    sound.grow framed whole rfl sound.generator ahead requested keys
  rcases appended : gw.journal.append (.orderRequested nowNs gw.cloidGen.generate.1 request) with
    ⟨result, journal⟩
  rw [appended] at grown
  cases result with
  | error e =>
    obtain ⟨durable, entries, grown, -⟩ := grown gw.orders old
    simp only [OrderGateway.enqueue, appended]
    exact ⟨durable, entries, (List.append_nil returned).symm ▸ grown⟩
  | ok done =>
    have keys : ∀ id order, (gw.orders.insert gw.cloidGen.generate.1
        (OrderGateway.pendingOrder gw.cloidGen.generate.1 request nowNs))[id]? = some order →
          gw.cloidGen.generate.2.Issued id := by
      intro id order found
      rcases of_getElem?_insert found with ⟨rfl, -⟩ | stored
      · exact own
      · exact old id order stored
    obtain ⟨durable, entries, grown, written⟩ := grown _ keys
    simp only [OrderGateway.enqueue, appended]
    refine ⟨durable, entries, { grown with returned := fun id member => ?_ }⟩
    rcases List.mem_append.mp member with before | last
    · exact grown.returned id before
    · obtain rfl := List.mem_singleton.mp last
      exact ⟨_, written rfl, rfl, rfl⟩

/-- Every other call. -/
theorem lifecycle (sound : Sound returned gw durable entries) {op : GatewayOp}
    {cloid : ClientOrderId} (named : op.about = some cloid)
    (short : ∀ entry, gw.journaled op = some entry → (encodePayload entry).length ≤ 65535)
    (whole : ∀ entry, gw.journaled op = some entry → ¬gw.journal.Tears entry) :
    ∃ durable entries, Sound returned (gw.exec op).2 durable entries := by
  cases heeded : gw.heeded? op with
  | none =>
    rw [(OrderGateway.exec_ignored named heeded).2]
    exact ⟨durable, entries, sound⟩
  | some order =>
    obtain ⟨cloid, entry, named, found, journaled, committed⟩ :=
      OrderGateway.exec_heeded heeded
    obtain ⟨own, other⟩ := OrderGateway.journaled_about journaled named
    have issued := sound.keys cloid order found
    have framed : entry.Framed := ⟨own.symm ▸ issued.short, short entry journaled⟩
    have keys : ∀ id known, (gw.orders.insert cloid (op.update order))[id]? = some known →
        gw.cloidGen.Issued id := by
      intro id known tracked
      rcases of_getElem?_insert tracked with ⟨rfl, -⟩ | stored
      · exact issued
      · exact sound.keys id known stored
    have grown : ∃ durable entries,
        Sound returned (gw.commit cloid (op.update order) entry).2 durable entries ∧ _ :=
      sound.grow framed (whole entry journaled) rfl sound.generator (fun _ issued => issued)
        (fun _ requests => absurd requests.1 other) keys
    obtain ⟨durable, entries, grown, -⟩ := grown
    rw [committed]
    exact ⟨durable, entries, grown⟩

/-- A call returns an id that is not in use, and at most one. -/
theorem call (sound : Sound returned gw durable entries) (op : GatewayOp)
    (room : gw.cloidGen.counter.toNat + 1 < 2 ^ 64)
    (short : ∀ entry, gw.journaled op = some entry → (encodePayload entry).length ≤ 65535)
    (whole : ∀ entry, gw.journaled op = some entry → ¬gw.journal.Tears entry) :
    (∃ durable entries,
      Sound (returned ++ (gw.exec op).1.toOption.join.toList) (gw.exec op).2 durable entries) ∧
    (gw.exec op).2.cloidGen.counter.toNat ≤
      gw.cloidGen.counter.toNat + op.isEnqueue.toNat ∧
    ∀ id, (gw.exec op).1.toOption.join = some id → ¬gw.cloidGen.Issued id := by
  cases named : op.about with
  | none =>
    cases op with
    | enqueue request nowNs =>
      have framed : (JournalEntry.orderRequested nowNs gw.cloidGen.generate.1 request).Framed :=
        ⟨generate_utf8ByteSize gw.cloidGen, short _ rfl⟩
      refine ⟨?_, ?_, fun id answered => ?_⟩
      · rw [OrderGateway.exec_enqueue_answer]
        exact sound.enqueue request nowNs room framed (whole _ rfl)
      · have next : (gw.exec (.enqueue request nowNs)).2.cloidGen = gw.cloidGen.generate.2 :=
          OrderGateway.enqueue_cloidGen gw request nowNs
        rw [next]
        exact (UInt64.toNat_succ room).le
      · rcases gw.exec_enqueue request nowNs with ⟨e, failed, -⟩ | ⟨issued, -⟩
        · rw [failed] at answered
          cases answered
        · rw [issued] at answered
          obtain rfl := Option.some.inj answered
          exact ClientOrderIdGenerator.not_issued_generate gw.cloidGen
    | _ => cases named
  | some cloid =>
    have silent : (gw.exec op).1.toOption.join = none := OrderGateway.exec_silent named
    have same : (gw.exec op).2.cloidGen = gw.cloidGen := OrderGateway.exec_cloidGen named
    obtain ⟨durable, entries, later⟩ := sound.lifecycle named short whole
    rw [silent, same]
    exact ⟨⟨durable, entries, (List.append_nil returned).symm ▸ later⟩, Nat.le_add_right _ _,
      nofun⟩

end Sound

end TradingConnectivity.Gateway
