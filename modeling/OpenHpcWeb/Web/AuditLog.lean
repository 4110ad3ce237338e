/-
  The audit log of internal/web/app.go, read page by page while events are recorded.

  A client starts at the newest page and follows `NextBeforeID` for as long as a page has more
  (`AuditLog.cursor`). `AuditLog.move` is one record or one page, each with the faults it
  meets, and `AuditLog.run` any sequence of them on a new store.

  * `parseAuditCursor_formatInt`: a cursor greater than 0 is accepted.
  * `run_ok`: the invariant `AuditLog.Ok`. The table is that of the events recorded, and the
    pages are a `Paging` of it.
  * `audit_log_pages`: what the store holds and what the client has read, after any run.
-/
import OpenHpcWeb.Go.Decimal
import OpenHpcWeb.Platform.Audit

namespace OpenHpcWeb.Web

open OpenHpcWeb.Go OpenHpcWeb.Lib OpenHpcWeb.Platform

/-! ## Cursors -/

def parseAuditCursor (value : String) : Except String GoInt :=
  if value = "" then .ok (wrap64 0)
  else if 19 < byteLen value ∨ value.toList.head? = some '0' then .error "invalid audit cursor"
  else if value.toList.any fun c => c < '0' ∨ '9' < c then .error "invalid audit cursor"
  else
    match parseInt value with
    | none => .error "invalid audit cursor"
    | some cursor => if cursor.val ≤ 0 then .error "invalid audit cursor" else .ok cursor

/-- A cursor that a page hands out is accepted. -/
theorem parseAuditCursor_formatInt {c : GoInt} (h : 0 < c.val) :
    parseAuditCursor (formatInt c) = .ok c := by
  have hdigits := digits_formatInt h
  have hlen := byteLen_formatInt (le_of_lt h)
  have hother : ¬ ((formatInt c).toList.any fun c => c < '0' ∨ '9' < c) = true := by
    intro hany
    obtain ⟨d, hd, hout⟩ := List.any_eq_true.mp hany
    rw [decide_eq_true_eq] at hout
    have hdigit := hdigits.digits d hd
    unfold Char.isDigit at hdigit
    simp only [ge_iff_le, Bool.and_eq_true, decide_eq_true_eq] at hdigit
    rcases hout with hout | hout
    · exact absurd hout (not_lt.mpr hdigit.1)
    · exact absurd hout (not_lt.mpr hdigit.2)
  unfold parseAuditCursor
  rw [if_neg hdigits.ne_empty, if_neg (not_or.mpr ⟨not_lt.mpr hlen, hdigits.head⟩), if_neg hother,
    parseInt_formatInt (le_of_lt h)]
  exact if_neg (not_le.mpr h)

namespace AuditLog

/-! ## A client among the records -/

/-- One page that was read, with the table at that moment. -/
structure PageRead where
  table : AuditTable
  beforeID : Int
  page : AuditPage

/-- The store, the events recorded so far and the pages the client has read. -/
structure World where
  table : AuditTable
  recorded : List Platform.AuditEvent
  reads : List PageRead

def World.start : World := ⟨.empty, [], []⟩

/-- The cursor of the next page: 0 before the first one, none after the last one. -/
def World.cursor (w : World) : Option Int :=
  match w.reads.getLast? with
  | none => some 0
  | some r => if r.page.hasMore then some r.page.nextBeforeID else none

/-- `Record` of an event that has the time of the clock, or `List` of the next page. -/
inductive Move where
  | record (faults : Faults) (event : { e : Platform.AuditEvent // FourDigitYear e.createdAt })
  | read (faults : Faults) (limit : Int)

def World.move (w : World) : Move → World
  | .record faults event =>
    match Platform.record faults event.val w.table with
    | (.error _, table) => { w with table := table }
    | (.ok (), table) => { w with table := table, recorded := w.recorded ++ [event.val] }
  | .read faults limit =>
    match w.cursor with
    | none => w
    | some beforeID =>
      match listEvents faults beforeID limit w.table with
      | .error _ => w
      | .ok page => { w with reads := w.reads ++ [⟨w.table, beforeID, page⟩] }

def run (moves : List Move) : World := moves.foldl World.move .start

/-! ## The invariant -/

/-- A page as a reading of the events. -/
def PageRead.reading (r : PageRead) : Reading Platform.AuditEvent Int :=
  ⟨r.table.events, positionOf r.beforeID, r.page.events, r.page.position⟩

/-- Where the client is. -/
def World.position (w : World) : Position Int :=
  match w.reads.getLast? with
  | none => .newest
  | some r => r.page.position

/-- What holds after any moves. -/
structure Ok (w : World) : Prop where
  table : w.table = tableOf w.recorded
  clocked : Clocked w.recorded
  room : (w.recorded.length : Int) < 2 ^ 63
  paging : Paging Platform.AuditEvent.id (w.reads.map PageRead.reading) w.position
  past : ∀ r ∈ w.reads, ∃ past, past <+: w.recorded ∧ r.table = tableOf past

theorem ok_start : Ok .start where
  table := tableOf_nil.symm
  clocked e he := absurd he List.not_mem_nil
  room := by decide
  paging := .start
  past r hr := absurd hr List.not_mem_nil

variable {w : World} {r : PageRead}

/-- The table of a page is that of some of the events. -/
theorem Ok.rows (h : Ok w) (hr : r ∈ w.reads) :
    ∃ past, past <+: w.recorded ∧ r.table = tableOf past ∧ r.table.events = retained past := by
  obtain ⟨past, hpast, htable⟩ := h.past r hr
  have hclocked : Clocked past := fun e he => h.clocked e (hpast.subset he)
  exact ⟨past, hpast, htable, by rw [htable, events_tableOf hclocked]⟩

theorem Ok.reading (h : Ok w) (hr : r ∈ w.reads) : r.reading.Ok Platform.AuditEvent.id :=
  h.paging.ok _ (List.mem_map_of_mem hr)

/-- A page has more if and only if it holds an event with an older one behind it; the cursor is
    the id of its last event then. -/
theorem Ok.more (h : Ok w) (hr : r ∈ w.reads) :
    (r.page.hasMore = true ∧ ∃ last, r.page.events.getLast? = some last ∧
      r.page.nextBeforeID = last.id ∧ ∃ e ∈ r.table.events, e.id < last.id) ∨
    (r.page.hasMore = false ∧ ∀ last, r.page.events.getLast? = some last →
      ∀ e ∈ r.table.events, ¬ e.id < last.id) := by
  have hposition : r.reading.stop = r.page.position := rfl
  rcases (h.reading hr).more with ⟨last, hlast, hstop, hold⟩ | ⟨hstop, hnone⟩
  · rw [hposition, AuditPage.position] at hstop
    cases hmore : r.page.hasMore with
    | false =>
      rw [hmore] at hstop
      cases hstop
    | true =>
      rw [hmore, if_pos rfl] at hstop
      exact .inl ⟨rfl, last, hlast, Position.below.inj hstop, hold⟩
  · rw [hposition, AuditPage.position] at hstop
    cases hmore : r.page.hasMore with
    | false => exact .inr ⟨rfl, hnone⟩
    | true =>
      rw [hmore, if_pos rfl] at hstop
      cases hstop

/-- A cursor that is handed out is the id of an event. -/
theorem Ok.nextBeforeID (h : Ok w) (hr : r ∈ w.reads) (hmore : r.page.hasMore = true) :
    0 < r.page.nextBeforeID ∧ r.page.nextBeforeID < 2 ^ 63 := by
  rcases h.more hr with ⟨-, last, hlast, hnext, -⟩ | ⟨hno, -⟩
  · obtain ⟨past, hpast, -, hrows⟩ := h.rows hr
    have hmem : last ∈ r.table.events := (h.reading hr).mem_rows (List.mem_of_getLast? hlast)
    rw [hrows] at hmem
    have hid := id_of_mem_retained hmem
    have hlength := hpast.length_le
    have hroom := h.room
    omega
  · rw [hmore] at hno
    cases hno

/-- The client waits where its next page starts. -/
theorem Ok.position_eq (h : Ok w) {beforeID : Int} (hcursor : w.cursor = some beforeID) :
    0 ≤ beforeID ∧ w.position = positionOf beforeID ∧ w.position ≠ .done := by
  unfold World.cursor at hcursor
  unfold World.position
  cases hlast : w.reads.getLast? with
  | none =>
    rw [hlast] at hcursor
    cases hcursor
    exact ⟨le_refl 0, rfl, nofun⟩
  | some r =>
    rw [hlast] at hcursor
    simp only at hcursor
    cases hmore : r.page.hasMore with
    | false =>
      rw [hmore] at hcursor
      cases hcursor
    | true =>
      rw [hmore, if_pos rfl] at hcursor
      cases hcursor
      have hpos := (h.nextBeforeID (List.mem_of_getLast? hlast) hmore).1
      have hposition : r.page.position = .below r.page.nextBeforeID := by
        unfold AuditPage.position
        rw [hmore, if_pos rfl]
      simp only
      rw [hposition, positionOf, if_neg (by omega)]
      exact ⟨le_of_lt hpos, rfl, nofun⟩

theorem Ok.position_done (h : w.cursor = none) : w.position = .done := by
  unfold World.cursor at h
  unfold World.position
  cases hlast : w.reads.getLast? with
  | none =>
    rw [hlast] at h
    cases h
  | some r =>
    rw [hlast] at h
    simp only at h ⊢
    unfold AuditPage.position
    cases hmore : r.page.hasMore with
    | false => rfl
    | true =>
      rw [hmore, if_pos rfl] at h
      cases h

/-! ## Steps -/

theorem ok_record (h : Ok w) (faults : Faults)
    (event : { e : Platform.AuditEvent // FourDigitYear e.createdAt }) :
    Ok (w.move (.record faults event)) := by
  cases hrecord : Platform.record faults event.val w.table with
  | mk result table =>
    cases result with
    | error e =>
      have hmove : w.move (.record faults event) = w := by
        simp only [World.move, hrecord, record_error hrecord]
      rw [hmove]
      exact h
    | ok u =>
      have hmove : w.move (.record faults event) =
          { w with table := table, recorded := w.recorded ++ [event.val] } := by
        simp only [World.move, hrecord]
      have hroom := h.room
      rw [h.table] at hrecord
      obtain ⟨htable, hfull⟩ := record_tableOf hrecord
      rw [hmove]
      refine ⟨htable, ?_, ?_, h.paging, ?_⟩
      · intro e he
        rcases List.mem_append.mp he with he | he
        · exact h.clocked e he
        · rw [List.mem_singleton.mp he]
          exact event.property
      · show ((w.recorded ++ [event.val]).length : Int) < 2 ^ 63
        rw [List.length_append, List.length_singleton]
        omega
      · intro r hr
        obtain ⟨past, hpast, htable⟩ := h.past r hr
        exact ⟨past, hpast.trans (List.prefix_append _ _), htable⟩

theorem head?_reading {first : PageRead} (hfirst : w.reads.head? = some first) :
    (w.reads.map PageRead.reading).head? = some first.reading := by
  rw [List.head?_map, hfirst]
  rfl

/-- What is ahead of the client was there when it read its first page. -/
theorem Ok.old (h : Ok w) {first : PageRead} (hfirst : w.reads.head? = some first)
    {e : Platform.AuditEvent} (he : e ∈ retained w.recorded) (hahead : w.position.Ahead e.id) :
    e ∈ first.table.events := by
  have hmem : first ∈ w.reads := List.mem_of_head? hfirst
  obtain ⟨past, hpast, -, hrows⟩ := h.rows hmem
  rw [hrows]
  refine mem_retained_past hpast he ?_
  cases hposition : w.position with
  | newest =>
    rw [List.map_eq_nil_iff.mp (h.paging.eq_nil hposition)] at hfirst
    cases hfirst
  | below c =>
    obtain ⟨a, ha, hid⟩ := h.paging.cursor_mem hposition
    have hevents : a ∈ first.table.events := h.paging.existed (head?_reading hfirst) a ha
    rw [hrows] at hevents
    have hle := (id_of_mem_retained hevents).2
    rw [hposition] at hahead
    have hlt : e.id < c := hahead
    omega
  | done =>
    rw [hposition] at hahead
    exact hahead.elim

theorem ok_read (h : Ok w) (faults : Faults) (limit : Int) : Ok (w.move (.read faults limit)) := by
  cases hcursor : w.cursor with
  | none =>
    have hmove : w.move (.read faults limit) = w := by simp only [World.move, hcursor]
    rw [hmove]
    exact h
  | some beforeID =>
    cases hlist : listEvents faults beforeID limit w.table with
    | error e =>
      have hmove : w.move (.read faults limit) = w := by simp only [World.move, hcursor, hlist]
      rw [hmove]
      exact h
    | ok page =>
      have hmove : w.move (.read faults limit) =
          { w with reads := w.reads ++ [⟨w.table, beforeID, page⟩] } := by
        simp only [World.move, hcursor, hlist]
      obtain ⟨-, hposition, hgoes⟩ := h.position_eq hcursor
      have hevents : w.table.events = retained w.recorded := by
        rw [h.table, events_tableOf h.clocked]
      rw [h.table] at hlist
      have hok : (PageRead.reading ⟨w.table, beforeID, page⟩).Ok Platform.AuditEvent.id := by
        unfold PageRead.reading
        rw [hevents]
        exact (listEvents_tableOf h.clocked hlist).2
      have hstart : (PageRead.reading ⟨w.table, beforeID, page⟩).start = w.position := hposition.symm
      rw [hmove]
      refine ⟨h.table, h.clocked, h.room, ?_, ?_⟩
      · have hstop : World.position { w with reads := w.reads ++ [⟨w.table, beforeID, page⟩] } =
            (PageRead.reading ⟨w.table, beforeID, page⟩).stop := by
          unfold World.position
          rw [List.getLast?_concat]
          rfl
        rw [hstop, List.map_append]
        refine .read (by rw [hstart]; exact h.paging) (by rw [hstart]; exact hgoes) hok ?_
        intro first hfirst e he hahead
        obtain ⟨r, hr, rfl⟩ := Option.map_eq_some_iff.mp (List.head?_map ▸ hfirst)
        rw [hstart] at hahead
        have hthere : e ∈ w.table.events := he
        rw [hevents] at hthere
        exact h.old hr hthere hahead
      · intro r hr
        rcases List.mem_append.mp hr with hr | hr
        · exact h.past r hr
        · rw [List.mem_singleton.mp hr]
          exact ⟨w.recorded, List.prefix_refl _, h.table⟩

theorem ok_move (h : Ok w) (move : Move) : Ok (w.move move) := by
  cases move with
  | record faults event => exact ok_record h faults event
  | read faults limit => exact ok_read h faults limit

theorem run_ok (moves : List Move) : Ok (run moves) :=
  List.foldlRecOn moves World.move ok_start fun _ h move _ => ok_move h move

/-! ## What the client reads -/

/-- The page of an id: it starts above the id and stops at it or below. -/
def PageRead.Covers (r : PageRead) (id : Int) : Prop :=
  (r.beforeID = 0 ∨ id < r.beforeID) ∧ (r.page.hasMore = false ∨ r.page.nextBeforeID ≤ id)

instance (r : PageRead) (id : Int) : Decidable (r.Covers id) :=
  inferInstanceAs (Decidable (_ ∧ _))

theorem covers_reading_iff (r : PageRead) (id : Int) : r.reading.Covers id ↔ r.Covers id := by
  have hstart : (positionOf r.beforeID).Ahead id ↔ (r.beforeID = 0 ∨ id < r.beforeID) := by
    unfold positionOf
    by_cases hzero : r.beforeID = 0
    · rw [if_pos hzero]
      exact ⟨fun _ => .inl hzero, fun _ => trivial⟩
    · rw [if_neg hzero]
      exact ⟨.inr, fun h => h.resolve_left hzero⟩
  have hstop : ¬ r.page.position.Ahead id ↔
      (r.page.hasMore = false ∨ r.page.nextBeforeID ≤ id) := by
    unfold AuditPage.position
    cases r.page.hasMore with
    | false => exact ⟨fun _ => .inl rfl, fun _ hahead => hahead⟩
    | true =>
      show ¬ id < r.page.nextBeforeID ↔ _
      rw [not_lt]
      exact ⟨.inr, fun h => h.resolve_left (by decide)⟩
  exact and_congr hstart hstop

/-- The events of the pages, in the order they were read. -/
def World.visited (w : World) : List Platform.AuditEvent := w.reads.flatMap fun r => r.page.events

theorem visited_eq (w : World) : w.visited = Lib.visited (w.reads.map PageRead.reading) := by
  unfold World.visited Lib.visited
  rw [List.flatMap_map]
  rfl

/-- The store holds the last events, in the order of their records. -/
structure Retention (w : World) : Prop where
  rows : w.table.rows =
    ((numbered 0 w.recorded).drop (w.recorded.length - maxAuditEvents)).map
      Platform.AuditEvent.row
  length : w.table.rows.length = min w.recorded.length maxAuditEvents
  ids : (w.table.rows.map AuditRow.id).Pairwise (· < ·)

/-- The client reads the events there were, each on its page, and comes to an end. -/
structure Pages (w : World) : Prop where
  newestFirst : (w.visited.map Platform.AuditEvent.id).Pairwise (· > ·)
  existed : ∀ first, w.reads.head? = some first → ∀ e ∈ w.visited, e ∈ first.table.events
  visited : ∀ e, e ∈ w.visited ↔ ∃ r ∈ w.reads, r.Covers e.id ∧ e ∈ r.table.events
  onePage : w.cursor = none → ∀ id, w.reads.countP (fun r => r.Covers id) = 1
  hasMore : ∀ r ∈ w.reads, r.page.hasMore = true ↔
    ∃ last, r.page.events.getLast? = some last ∧ ∃ e ∈ r.table.events, e.id < last.id
  accepted : ∀ r ∈ w.reads, r.page.hasMore = true →
    ∃ c : GoInt, c.val = r.page.nextBeforeID ∧ parseAuditCursor (formatInt c) = .ok c
  bound : ∀ first, w.reads.head? = some first →
    w.reads.length ≤ first.table.rows.length + 1

theorem Ok.retention (h : Ok w) : Retention w where
  rows := by
    rw [h.table, ← retained_eq_drop]
    rfl
  length := by
    rw [h.table, ← length_retained]
    exact List.length_map _
  ids := by
    rw [h.table]
    show (((retained w.recorded).map Platform.AuditEvent.row).map AuditRow.id).Pairwise (· < ·)
    rw [List.map_map, List.pairwise_map]
    exact retained_sorted w.recorded

theorem Ok.pages (h : Ok w) : Pages w where
  newestFirst := by
    rw [visited_eq]
    exact h.paging.sorted
  existed first hfirst := by
    rw [visited_eq]
    exact h.paging.existed (head?_reading hfirst)
  visited e := by
    rw [visited_eq, h.paging.mem_visited_iff]
    constructor
    · rintro ⟨s, hs, hcovers, he⟩
      obtain ⟨r, hr, rfl⟩ := List.mem_map.mp hs
      exact ⟨r, hr, (covers_reading_iff r e.id).mp hcovers, he⟩
    · rintro ⟨r, hr, hcovers, he⟩
      exact ⟨r.reading, List.mem_map_of_mem hr, (covers_reading_iff r e.id).mpr hcovers, he⟩
  onePage hcursor id := by
    have hcount := h.paging.countP_covers id
    rw [Ok.position_done hcursor, List.countP_map] at hcount
    refine Eq.trans ?_ hcount
    refine List.countP_congr fun r _ => ?_
    simp only [Function.comp_apply, decide_eq_true_eq]
    exact (covers_reading_iff r id).symm
  hasMore r hr := by
    rcases h.more hr with ⟨hmore, last, hlast, -, hold⟩ | ⟨hno, hnone⟩
    · exact ⟨fun _ => ⟨last, hlast, hold⟩, fun _ => hmore⟩
    · constructor
      · intro hmore
        rw [hno] at hmore
        cases hmore
      · rintro ⟨last, hlast, e, he, hlt⟩
        exact absurd hlt (hnone last hlast e he)
  accepted r hr hmore := by
    obtain ⟨hpos, hlt⟩ := h.nextBeforeID hr hmore
    refine ⟨⟨r.page.nextBeforeID, by omega⟩, rfl, ?_⟩
    exact parseAuditCursor_formatInt hpos
  bound first hfirst := by
    have hlength := h.paging.length_le (head?_reading hfirst)
    obtain ⟨past, -, htable, hrows⟩ := h.rows (List.mem_of_head? hfirst)
    have hevents : first.reading.rows.length = first.table.rows.length := by
      show first.table.events.length = _
      rw [hrows, htable]
      exact (List.length_map _).symm
    rw [List.length_map, hevents] at hlength
    exact hlength

/-! ## The end of the pages -/

/-- A page read within the bounds of `List`, without faults. -/
def Move.succeeds : Move → Bool
  | .read faults limit => faults = [] ∧ 1 ≤ limit ∧ limit ≤ 100
  | .record _ _ => false

theorem cursor_congr {w w' : World} (h : w'.reads = w.reads) : w'.cursor = w.cursor := by
  unfold World.cursor
  rw [h]

/-- A record leaves the pages alone. -/
theorem reads_record (w : World) (faults : Faults)
    (event : { e : Platform.AuditEvent // FourDigitYear e.createdAt }) :
    (w.move (.record faults event)).reads = w.reads := by
  cases hrecord : Platform.record faults event.val w.table with
  | mk result table => cases result <;> simp only [World.move, hrecord]

/-- A client that has read the last page reads no more. -/
theorem move_of_done (h : w.cursor = none) (move : Move) : (w.move move).reads = w.reads := by
  cases move with
  | record faults event => exact reads_record w faults event
  | read faults limit => simp only [World.move, h]

theorem length_reads_le (w : World) (move : Move) :
    w.reads.length ≤ (w.move move).reads.length := by
  cases move with
  | record faults event => exact le_of_eq (congrArg List.length (reads_record w faults event)).symm
  | read faults limit =>
    cases hcursor : w.cursor with
    | none => simp only [World.move, hcursor, le_refl]
    | some beforeID =>
      cases hlist : listEvents faults beforeID limit w.table with
      | error e => simp only [World.move, hcursor, hlist, le_refl]
      | ok page => simp [World.move, hcursor, hlist]

/-- Without faults a client that is not done reads one more page. -/
theorem length_reads_succeeds (h : Ok w) (hcursor : w.cursor ≠ none) {move : Move}
    (hmove : move.succeeds = true) : (w.move move).reads.length = w.reads.length + 1 := by
  obtain ⟨beforeID, hsome⟩ := Option.ne_none_iff_exists'.mp hcursor
  cases move with
  | record faults event => cases hmove
  | read faults limit =>
    obtain ⟨hfaults, hlimit⟩ := of_decide_eq_true hmove
    have hbefore := (h.position_eq hsome).1
    obtain ⟨page, hpage⟩ := listEvents_nil h.clocked hbefore hlimit
    rw [← h.table] at hpage
    rw [hfaults]
    simp only [World.move, hsome, hpage, List.length_append, List.length_singleton]

theorem run_snoc (moves : List Move) (move : Move) :
    run (moves ++ [move]) = (run moves).move move := by
  unfold run
  rw [List.foldl_append]
  rfl

/-- As many pages as reads that succeed, or the client is done. -/
theorem done_or_le (moves : List Move) :
    (run moves).cursor = none ∨ moves.countP Move.succeeds ≤ (run moves).reads.length := by
  induction moves using List.reverseRecOn with
  | nil => exact .inr (Nat.zero_le _)
  | append_singleton moves move ih =>
    rw [run_snoc, List.countP_append, List.countP_singleton]
    by_cases hcursor : (run moves).cursor = none
    · have hreads := move_of_done hcursor move
      exact .inl (by rw [cursor_congr hreads, hcursor])
    · have hlength := ih.resolve_left hcursor
      refine .inr ?_
      by_cases hmove : move.succeeds = true
      · have hnext := length_reads_succeeds (run_ok moves) hcursor hmove
        rw [if_pos hmove]
        omega
      · have hkeeps := length_reads_le (run moves) move
        rw [if_neg hmove]
        omega

/-- After any moves on a new store the table holds the last events in the order of their
    records, the client has read every event that was there at its first page and is still there
    at the event's own page, newest first and once, and after as many reads as rows are retained
    and two it is done. -/
theorem audit_log_pages (moves : List Move) :
    Retention (run moves) ∧ Pages (run moves) ∧
      (maxAuditEvents + 1 < moves.countP Move.succeeds → (run moves).cursor = none) := by
  have hok := run_ok moves
  refine ⟨hok.retention, hok.pages, fun hmany => ?_⟩
  rcases done_or_le moves with hdone | hle
  · exact hdone
  · cases hhead : (run moves).reads.head? with
    | none =>
      have hnil := List.head?_eq_none_iff.mp hhead
      rw [hnil, List.length_nil] at hle
      omega
    | some first =>
      have hbound := hok.pages.bound first hhead
      obtain ⟨past, -, htable, -⟩ := hok.rows (List.mem_of_head? hhead)
      have hrows : first.table.rows.length ≤ maxAuditEvents := by
        rw [htable]
        show ((retained past).map Platform.AuditEvent.row).length ≤ maxAuditEvents
        rw [List.length_map, length_retained]
        exact Nat.min_le_right _ _
      omega

-- Four records, a page of two, a record, and two pages more, of which the last finds nothing.
example :
    let recordOf (actor : String) : Move :=
      .record [] ⟨⟨0, actor, "auth.login", "success", 0⟩, (by decide +kernel : FourDigitYear 0)⟩
    (run (["first", "second", "third", "fourth"].map recordOf ++
      [.read [] 2, recordOf "new arrival", .read [] 2, .read [] 2])).visited.map
        Platform.AuditEvent.actor = ["fourth", "third", "second", "first"] := by
  decide +kernel

end AuditLog

end OpenHpcWeb.Web
