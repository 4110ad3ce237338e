/-
  The audit store of internal/platform/audit.go.

  The database is the table `audit_events` with its id sequence, and the methods are programs
  over it, statement by statement (`Tx`). An id is a rowid of SQLite: at most `2 ^ 63 - 1`.

  * `record_tableOf`: a `Record` that succeeds takes the table of the events so far
    (`tableOf`) to the table of these and the new one, and one that fails leaves it.
  * `tableOf` holds the last `maxAuditEvents` of the events, under increasing ids.
  * `list_tableOf`: a `List` that succeeds gives a page of that table (`Reading.Ok`).
-/
import Mathlib.Data.List.Sort
import OpenHpcWeb.Go.Time
import OpenHpcWeb.Lib.Keyset
import OpenHpcWeb.Lib.Tx

namespace OpenHpcWeb.Platform

open OpenHpcWeb.Go OpenHpcWeb.Lib

structure AuditEvent where
  id : Int
  actor : String
  action : String
  outcome : String
  createdAt : Int
  deriving DecidableEq

structure AuditPage where
  events : List AuditEvent
  nextBeforeID : Int
  hasMore : Bool
  deriving DecidableEq

def maxAuditEvents : Nat := 100000

/-! ## The table -/

/-- A row of `audit_events`. -/
structure AuditRow where
  id : Int
  actor : String
  action : String
  outcome : String
  createdAt : String
  deriving DecidableEq

/-- The rows, and the largest id that was given to one (`sqlite_sequence`). -/
structure AuditTable where
  rows : List AuditRow
  seq : Int
  deriving DecidableEq

namespace AuditTable

/-- The store of a new database. -/
def empty : AuditTable := ⟨[], 0⟩

/-- `INSERT INTO audit_events ..`: `AUTOINCREMENT` never gives an id twice. -/
def insert (actor action outcome createdAt : String) (t : AuditTable) : Except String AuditTable :=
  if t.seq = 2 ^ 63 - 1 then .error "database or disk is full"
  else .ok ⟨t.rows ++ [⟨t.seq + 1, actor, action, outcome, createdAt⟩], t.seq + 1⟩

/-- `SELECT COALESCE(MAX(id), 0) FROM audit_events`. -/
def maxID (t : AuditTable) : Int := (t.rows.map AuditRow.id).max?.getD 0

/-- `DELETE FROM audit_events WHERE id <= (SELECT COALESCE(MAX(id), 0) - ? ..)`. -/
def prune (t : AuditTable) : Except String AuditTable :=
  .ok { t with rows := t.rows.filter fun r => ¬ r.id ≤ t.maxID - maxAuditEvents }

/-- `SELECT .. [WHERE id < ?] ORDER BY id DESC LIMIT ?`. -/
def selectEvents (t : AuditTable) (beforeID : Int) (limit : Nat) : List AuditRow :=
  ((t.rows.filter fun r => beforeID = 0 ∨ r.id < beforeID).insertionSort fun a b =>
    b.id ≤ a.id).take limit

end AuditTable

/-! ## The methods -/

def recordTx (event : AuditEvent) : Tx AuditTable Unit := do
  Tx.exec "record audit event: begin transaction" .ok
  Tx.exec "record audit event"
    (AuditTable.insert event.actor event.action event.outcome (formatRFC3339Nano event.createdAt))
  Tx.exec "record audit event: prune retained events" AuditTable.prune
  Tx.exec "record audit event: commit" .ok

/-- `AuditStore.Record`; the id of `event` is not used. -/
def record (faults : Faults) (event : AuditEvent) (t : AuditTable) :
    Except String Unit × AuditTable :=
  transaction (recordTx event) faults t

/-- The text of the parse error itself is left out. -/
def scanAuditEvent (r : AuditRow) : Except String AuditEvent :=
  match parseRFC3339Nano r.createdAt with
  | none => .error "parse audit event timestamp"
  | some createdAt => .ok ⟨r.id, r.actor, r.action, r.outcome, createdAt⟩

/-- The page of the events read, of which there may be one more than `limit`. -/
def auditPage (limit : Nat) (events : List AuditEvent) : AuditPage :=
  match (events.take limit).getLast? with
  | some last =>
    if limit < events.length then ⟨events.take limit, last.id, true⟩ else ⟨events, 0, false⟩
  | none => ⟨events, 0, false⟩

def listTx (beforeID : Int) (limit : Nat) : Tx AuditTable AuditPage := do
  let rows ← Tx.query "list audit events" fun t => t.selectEvents beforeID (limit + 1)
  let events ← Tx.lift (rows.mapM scanAuditEvent)
  Tx.query "list audit events: iterate rows" fun _ => ()
  return auditPage limit events

/-- `AuditStore.List`. -/
def listEvents (faults : Faults) (beforeID limit : Int) (t : AuditTable) :
    Except String AuditPage :=
  if beforeID < 0 ∨ limit < 1 ∨ limit > 100 then
    .error "list audit events: invalid query bounds"
  else (transaction (listTx beforeID limit.toNat) faults t).1

/-! ## The events that were recorded -/

/-- Events in the order of their records, under the ids after `k`. -/
def numbered : Int → List AuditEvent → List AuditEvent
  | _, [] => []
  | k, event :: events => { event with id := k + 1 } :: numbered (k + 1) events

@[simp] theorem length_numbered (k : Int) (events : List AuditEvent) :
    (numbered k events).length = events.length := by
  induction events generalizing k with
  | nil => rfl
  | cons event events ih => exact congrArg (· + 1) (ih (k + 1))

theorem numbered_append (k : Int) (events later : List AuditEvent) :
    numbered k (events ++ later) = numbered k events ++ numbered (k + events.length) later := by
  induction events generalizing k with
  | nil =>
    rw [List.length_nil, Int.natCast_zero, Int.add_zero]
    rfl
  | cons first events ih =>
    have hlength : k + 1 + (events.length : Int) = k + ((events.length + 1 : Nat) : Int) := by
      omega
    rw [List.cons_append, numbered, ih, hlength]
    rfl

theorem id_of_mem_numbered {k : Int} {events : List AuditEvent} :
    ∀ e ∈ numbered k events, k < e.id ∧ e.id ≤ k + events.length := by
  induction events generalizing k with
  | nil => exact fun e he => absurd he List.not_mem_nil
  | cons event events ih =>
    intro e he
    rw [List.length_cons]
    rcases List.mem_cons.mp he with rfl | he
    · show k < k + 1 ∧ k + 1 ≤ _
      omega
    · have hrest := ih e he
      omega

theorem numbered_sorted (k : Int) (events : List AuditEvent) :
    (numbered k events).Pairwise fun a b => a.id < b.id := by
  induction events generalizing k with
  | nil => exact List.Pairwise.nil
  | cons event events ih =>
    refine List.pairwise_cons.mpr ⟨fun e he => ?_, ih (k + 1)⟩
    exact (id_of_mem_numbered e he).1

/-- The events after the first `d` are those with the greater ids. -/
theorem filter_numbered (k : Int) (events : List AuditEvent) (d : Nat) :
    (numbered k events).filter (fun e => k + d < e.id) = (numbered k events).drop d := by
  induction events generalizing k d with
  | nil => rw [numbered, List.filter_nil, List.drop_nil]
  | cons event events ih =>
    cases d with
    | zero =>
      rw [List.drop_zero, List.filter_eq_self]
      intro e he
      have hid := (id_of_mem_numbered e he).1
      rw [decide_eq_true_eq]
      omega
    | succ d =>
      have hpast : k + ((d + 1 : Nat) : Int) = k + 1 + d := by omega
      rw [numbered, List.filter_cons_of_neg (by simp), List.drop_succ_cons, hpast, ih]

/-- The events that are left after the records of `events`, with their ids. -/
def retained (events : List AuditEvent) : List AuditEvent :=
  (numbered 0 events).filter fun e => (events.length : Int) - maxAuditEvents < e.id

theorem mem_retained {events : List AuditEvent} {e : AuditEvent} : e ∈ retained events ↔
    e ∈ numbered 0 events ∧ (events.length : Int) - maxAuditEvents < e.id := by
  unfold retained
  rw [List.mem_filter, decide_eq_true_eq]

theorem retained_sorted (events : List AuditEvent) :
    (retained events).Pairwise fun a b => a.id < b.id :=
  (numbered_sorted 0 events).filter _

/-- They are the last ones. -/
theorem retained_eq_drop (events : List AuditEvent) :
    retained events = (numbered 0 events).drop (events.length - maxAuditEvents) := by
  rw [← filter_numbered]
  refine List.filter_congr fun e he => ?_
  have hid := (id_of_mem_numbered e he).1
  rw [decide_eq_decide]
  omega

theorem length_retained (events : List AuditEvent) :
    (retained events).length = min events.length maxAuditEvents := by
  rw [retained_eq_drop, List.length_drop, length_numbered]
  omega

/-- One more record: the new event is there and those that are too old have gone. -/
theorem retained_snoc (events : List AuditEvent) (event : AuditEvent) :
    retained (events ++ [event]) =
      (retained events ++ [{ event with id := (events.length : Int) + 1 }]).filter
        fun e => (events.length : Int) + 1 - maxAuditEvents < e.id := by
  have hmax : (0 : Int) < maxAuditEvents := by decide
  unfold retained
  rw [numbered_append, List.filter_append, List.filter_append, List.filter_filter, List.length_append,
    List.length_singleton, Int.zero_add]
  congr 1
  refine List.filter_congr fun e _ => ?_
  rw [← Bool.decide_and, decide_eq_decide]
  omega

/-- An event that is left and was recorded before some others was left before these, too. -/
theorem mem_retained_past {past events : List AuditEvent} (hpast : past <+: events)
    {e : AuditEvent} (he : e ∈ retained events) (hid : e.id ≤ past.length) : e ∈ retained past := by
  obtain ⟨later, rfl⟩ := hpast
  obtain ⟨hmem, hrecent⟩ := mem_retained.mp he
  rw [numbered_append] at hmem
  rw [List.length_append] at hrecent
  rcases List.mem_append.mp hmem with hmem | hmem
  · exact mem_retained.mpr ⟨hmem, by omega⟩
  · have hlater := (id_of_mem_numbered e hmem).1
    omega

theorem id_of_mem_retained {events : List AuditEvent} {e : AuditEvent} (he : e ∈ retained events) :
    0 < e.id ∧ e.id ≤ events.length := by
  have hid := id_of_mem_numbered e (mem_retained.mp he).1
  omega

/-! ### As rows -/

/-- The row that `Record` writes for an event. -/
def AuditEvent.row (e : AuditEvent) : AuditRow :=
  ⟨e.id, e.actor, e.action, e.outcome, formatRFC3339Nano e.createdAt⟩

/-- The table after the records of `events`. -/
def tableOf (events : List AuditEvent) : AuditTable :=
  ⟨(retained events).map AuditEvent.row, events.length⟩

theorem tableOf_nil : tableOf [] = .empty := rfl

theorem insert_tableOf (events : List AuditEvent) (event : AuditEvent) :
    AuditTable.insert event.actor event.action event.outcome (formatRFC3339Nano event.createdAt)
        (tableOf events) =
      if (events.length : Int) = 2 ^ 63 - 1 then .error "database or disk is full"
      else .ok ⟨(retained events ++ [{ event with id := (events.length : Int) + 1 }]).map
        AuditEvent.row, (events.length : Int) + 1⟩ := by
  rw [List.map_append]
  rfl

/-- The row inserted last has the greatest id. -/
theorem maxID_inserted (events : List AuditEvent) (event : AuditEvent) (seq : Int) :
    AuditTable.maxID ⟨(retained events ++ [{ event with id := (events.length : Int) + 1 }]).map
      AuditEvent.row, seq⟩ = (events.length : Int) + 1 := by
  have hmax : ((retained events ++ [{ event with id := (events.length : Int) + 1 }]).map
      AuditEvent.id).max? = some ((events.length : Int) + 1) := by
    rw [List.max?_eq_some_iff]
    refine ⟨List.mem_map.mpr ⟨_, List.mem_append_right _ (List.mem_singleton.mpr rfl), rfl⟩, ?_⟩
    intro id hid
    obtain ⟨e, he, rfl⟩ := List.mem_map.mp hid
    rcases List.mem_append.mp he with he | he
    · have hle := (id_of_mem_numbered e (mem_retained.mp he).1).2
      omega
    · rw [List.mem_singleton.mp he]
  unfold AuditTable.maxID
  rw [List.map_map]
  exact congrArg (Option.getD · 0) hmax

/-- What the two statements leave of the table. -/
theorem prune_inserted (events : List AuditEvent) (event : AuditEvent) :
    AuditTable.prune ⟨(retained events ++ [{ event with id := (events.length : Int) + 1 }]).map
      AuditEvent.row, (events.length : Int) + 1⟩ = .ok (tableOf (events ++ [event])) := by
  unfold AuditTable.prune tableOf
  rw [maxID_inserted, retained_snoc, List.filter_map, List.length_append, List.length_singleton]
  have hkeep : ((fun r : AuditRow =>
      decide ¬ r.id ≤ (events.length : Int) + 1 - maxAuditEvents) ∘ AuditEvent.row) =
      fun e => decide ((events.length : Int) + 1 - maxAuditEvents < e.id) := by
    funext e
    exact decide_eq_decide.mpr not_le
  rw [hkeep]
  rfl

theorem recordTx_steady (event : AuditEvent) : (recordTx event).Steady :=
  .bind (.exec _ _) fun _ => .bind (.exec _ _) fun _ => .bind (.exec _ _) fun _ => .exec _ _

/-- The four statements of a record. -/
theorem recordTx_runs (events : List AuditEvent) (event : AuditEvent)
    (hroom : (events.length : Int) ≠ 2 ^ 63 - 1) :
    Tx.Runs (recordTx event) (tableOf events) 4 () (tableOf (events ++ [event])) := by
  have hinsert := insert_tableOf events event
  rw [if_neg hroom] at hinsert
  rw [show (4 : Nat) = 1 + (1 + (1 + 1)) from rfl]
  unfold recordTx
  exact .bind (.exec rfl) (.bind (.exec hinsert)
    (.bind (.exec (prune_inserted events event)) (.exec rfl)))

/-- A record that succeeds, whatever the faults, has done its statements. -/
theorem record_tableOf {faults : Faults} {event : AuditEvent} {events : List AuditEvent}
    {t : AuditTable} (h : record faults event (tableOf events) = (.ok (), t)) :
    t = tableOf (events ++ [event]) ∧ (events.length : Int) ≠ 2 ^ 63 - 1 := by
  have hnil := transaction_ok (recordTx_steady event) h
  by_cases hfull : (events.length : Int) = 2 ^ 63 - 1
  · unfold transaction recordTx at hnil
    simp only [Tx.bind_apply, Tx.exec_nil, insert_tableOf, if_pos hfull] at hnil
    cases hnil
  · unfold transaction at hnil
    rw [(recordTx_runs events event hfull).nil] at hnil
    cases hnil
    exact ⟨rfl, hfull⟩

theorem record_error {faults : Faults} {event : AuditEvent} {t t' : AuditTable} {e : String}
    (h : record faults event t = (.error e, t')) : t' = t := transaction_error h

/-! ## Pages of the events -/

/-- The clock reads a year of four digits. -/
def Clocked (events : List AuditEvent) : Prop := ∀ e ∈ events, FourDigitYear e.createdAt

theorem clocked_numbered {k : Int} {events : List AuditEvent} (h : Clocked events) :
    Clocked (numbered k events) := by
  induction events generalizing k with
  | nil => exact fun e he => absurd he List.not_mem_nil
  | cons event events ih =>
    intro e he
    rcases List.mem_cons.mp he with rfl | he
    · exact h event List.mem_cons_self
    · exact ih (fun e he => h e (List.mem_cons_of_mem _ he)) e he

theorem clocked_retained {events : List AuditEvent} (h : Clocked events) :
    Clocked (retained events) :=
  fun e he => clocked_numbered h e (mem_retained.mp he).1

theorem scanAuditEvent_row {e : AuditEvent} (h : FourDigitYear e.createdAt) :
    scanAuditEvent e.row = .ok e := by
  unfold scanAuditEvent AuditEvent.row
  rw [parse_format h]

theorem mapM_scanAuditEvent {events : List AuditEvent} (h : Clocked events) :
    (events.map AuditEvent.row).mapM scanAuditEvent = .ok events := by
  induction events with
  | nil => rfl
  | cons event events ih =>
    rw [List.map_cons, List.mapM_cons, scanAuditEvent_row (h event List.mem_cons_self),
      ih fun e he => h e (List.mem_cons_of_mem _ he)]
    rfl

/-- The events of the rows. -/
def AuditTable.events (t : AuditTable) : List AuditEvent :=
  t.rows.filterMap fun r => (scanAuditEvent r).toOption

theorem events_tableOf {events : List AuditEvent} (h : Clocked events) :
    (tableOf events).events = retained events := by
  have hscan : ∀ e ∈ retained events,
      ((fun r => (scanAuditEvent r).toOption) ∘ AuditEvent.row) e = some e := by
    intro e he
    rw [Function.comp_apply, scanAuditEvent_row (clocked_retained h e he), Except.toOption]
  unfold AuditTable.events tableOf
  rw [List.filterMap_map, List.filterMap_congr hscan, List.filterMap_some]

/-- The retained events before an id, newest first. -/
def ahead (beforeID : Int) (events : List AuditEvent) : List AuditEvent :=
  ((retained events).filter fun e => beforeID = 0 ∨ e.id < beforeID).reverse

theorem ahead_sorted (beforeID : Int) (events : List AuditEvent) :
    ((ahead beforeID events).map AuditEvent.id).Pairwise (· > ·) := by
  unfold ahead
  rw [List.map_reverse, List.pairwise_reverse, List.pairwise_map]
  exact (retained_sorted events).filter _

/-- `ORDER BY id DESC`: different ids have one descending order. -/
theorem insertionSort_id {l m : List AuditRow} (hm : m.Pairwise fun a b => b.id < a.id)
    (hp : l.Perm m) : (l.insertionSort fun a b => b.id ≤ a.id) = m := by
  have : Std.Total fun a b : AuditRow => b.id ≤ a.id := ⟨fun a b => le_total b.id a.id⟩
  have : IsTrans AuditRow fun a b => b.id ≤ a.id := ⟨fun _ _ _ hab hbc => le_trans hbc hab⟩
  have hsorted := List.pairwise_insertionSort (fun a b : AuditRow => b.id ≤ a.id) l
  have hperm := (List.perm_insertionSort (fun a b : AuditRow => b.id ≤ a.id) l).trans hp
  have hids : (m.map AuditRow.id).Nodup := List.pairwise_map.mpr (hm.imp fun hlt => ne_of_gt hlt)
  refine List.Perm.eq_of_pairwise (fun a b ha hb hab hba => ?_) hsorted (hm.imp le_of_lt) hperm
  exact List.inj_on_of_nodup_map hids (hperm.mem_iff.mp ha) hb (le_antisymm hba hab)

theorem selectEvents_tableOf (beforeID : Int) (limit : Nat) (events : List AuditEvent) :
    (tableOf events).selectEvents beforeID limit =
      ((ahead beforeID events).take limit).map AuditEvent.row := by
  have hrows : (tableOf events).rows.filter (fun r => beforeID = 0 ∨ r.id < beforeID) =
      ((retained events).filter fun e => beforeID = 0 ∨ e.id < beforeID).map AuditEvent.row :=
    List.filter_map
  have hsorted : ((ahead beforeID events).map AuditEvent.row).Pairwise fun a b => b.id < a.id :=
    List.pairwise_map.mpr (List.pairwise_map.mp (ahead_sorted beforeID events))
  have hperm : (((retained events).filter fun e => beforeID = 0 ∨ e.id < beforeID).map
      AuditEvent.row).Perm ((ahead beforeID events).map AuditEvent.row) :=
    (List.reverse_perm _).symm.map _
  unfold AuditTable.selectEvents
  rw [hrows, insertionSort_id hsorted hperm, List.map_take]

theorem clocked_ahead {events : List AuditEvent} (h : Clocked events) (beforeID : Int) :
    Clocked (ahead beforeID events) := fun e he =>
  clocked_retained h e (List.mem_filter.mp (List.mem_reverse.mp he)).1

theorem listTx_steady (beforeID : Int) (limit : Nat) : (listTx beforeID limit).Steady :=
  .bind (.query _ _) fun _ => .bind (.lift _) fun _ => .bind (.query _ _) fun _ => .pure _

/-- What a list reads: the first events ahead, and one more to know that there is one. -/
theorem listTx_tableOf {events : List AuditEvent} (h : Clocked events) (beforeID : Int)
    (limit : Nat) : listTx beforeID limit (tableOf events) [] =
      .ok (auditPage limit ((ahead beforeID events).take (limit + 1)), tableOf events, []) := by
  have hclocked : Clocked ((ahead beforeID events).take (limit + 1)) := fun e he =>
    clocked_ahead h beforeID e (List.mem_of_mem_take he)
  unfold listTx
  rw [Tx.bind_apply, Tx.query_nil]
  simp only
  rw [selectEvents_tableOf, mapM_scanAuditEvent hclocked]
  rfl

/-- Where a client that asks for `before_id` is. -/
def positionOf (beforeID : Int) : Position Int := if beforeID = 0 then .newest else .below beforeID

/-- Where it is after a page: below the cursor if there is one. -/
def AuditPage.position (page : AuditPage) : Position Int :=
  if page.hasMore then .below page.nextBeforeID else .done

theorem mem_ahead {beforeID : Int} {events : List AuditEvent} {e : AuditEvent} :
    e ∈ ahead beforeID events ↔ e ∈ retained events ∧ (positionOf beforeID).Ahead e.id := by
  unfold ahead positionOf
  rw [List.mem_reverse, List.mem_filter, decide_eq_true_eq]
  by_cases hzero : beforeID = 0
  · rw [if_pos hzero]
    exact and_congr_right fun _ => ⟨fun _ => trivial, fun _ => .inl hzero⟩
  · rw [if_neg hzero]
    exact and_congr_right fun _ => ⟨fun h => h.resolve_left hzero, .inr⟩

/-- The look-ahead decides between a cursor and the end. -/
theorem auditPage_take {limit : Nat} (hlimit : 0 < limit) (l : List AuditEvent) :
    (auditPage limit (l.take (limit + 1))).events = l.take limit ∧
      (auditPage limit (l.take (limit + 1))).position =
        Reading.stopAfter AuditEvent.id limit l := by
  have htake : (l.take (limit + 1)).take limit = l.take limit := by
    rw [List.take_take, Nat.min_eq_left (Nat.le_succ limit)]
  have hlength : limit < (l.take (limit + 1)).length ↔ limit < l.length := by
    rw [List.length_take]
    omega
  unfold auditPage Reading.stopAfter
  rw [htake]
  cases hlast : (l.take limit).getLast? with
  | none =>
    have hempty : l = [] := by
      rw [List.getLast?_eq_none_iff, List.take_eq_nil_iff] at hlast
      exact hlast.resolve_left (Nat.ne_of_gt hlimit)
    rw [hempty, List.take_nil, List.take_nil]
    exact ⟨rfl, rfl⟩
  | some last =>
    simp only
    by_cases hmore : limit < l.length
    · rw [if_pos (hlength.mpr hmore), if_pos hmore]
      exact ⟨rfl, rfl⟩
    · have hall : ∀ n, limit ≤ n → l.take n = l := fun n hn =>
        List.take_of_length_le (le_trans (Nat.not_lt.mp hmore) hn)
      rw [if_neg (fun h => hmore (hlength.mp h)), if_neg hmore, hall _ (Nat.le_succ limit),
        hall _ (le_refl limit)]
      exact ⟨rfl, rfl⟩

/-- A list that succeeds, whatever the faults, gives the page that is ahead. -/
theorem listEvents_tableOf {faults : Faults} {beforeID limit : Int} {events : List AuditEvent}
    {page : AuditPage} (hclocked : Clocked events)
    (h : listEvents faults beforeID limit (tableOf events) = .ok page) :
    0 ≤ beforeID ∧ Reading.Ok AuditEvent.id
      ⟨retained events, positionOf beforeID, page.events, page.position⟩ := by
  unfold listEvents at h
  by_cases hbounds : beforeID < 0 ∨ limit < 1 ∨ limit > 100
  · rw [if_pos hbounds] at h
    cases h
  · rw [if_neg hbounds] at h
    have hlimit : 0 < limit.toNat := by omega
    have hnil := transaction_ok (listTx_steady beforeID limit.toNat)
      (show transaction (listTx beforeID limit.toNat) faults (tableOf events) = (.ok page, _) from
        Prod.ext h rfl)
    unfold transaction at hnil
    rw [listTx_tableOf hclocked] at hnil
    have hpage := (Except.ok.inj (congrArg Prod.fst hnil)).symm
    obtain ⟨hevents, hposition⟩ := auditPage_take hlimit (ahead beforeID events)
    rw [hpage, hevents, hposition]
    exact ⟨by omega, Reading.ok_of_take hlimit (ahead_sorted beforeID events) fun _ => mem_ahead⟩

/-- Without faults a list within the bounds succeeds. -/
theorem listEvents_nil {beforeID limit : Int} {events : List AuditEvent}
    (hclocked : Clocked events) (hbefore : 0 ≤ beforeID) (hlimit : 1 ≤ limit ∧ limit ≤ 100) :
    ∃ page, listEvents [] beforeID limit (tableOf events) = .ok page := by
  have hbounds : ¬ (beforeID < 0 ∨ limit < 1 ∨ limit > 100) := by omega
  unfold listEvents transaction
  rw [if_neg hbounds, listTx_tableOf hclocked]
  exact ⟨_, rfl⟩

end OpenHpcWeb.Platform
