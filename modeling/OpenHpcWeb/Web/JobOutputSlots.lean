/-
  The tokens of `jobOutputSlots` (internal/web/job_output.go).

  A request accounts for one token while its handler holds the slot, and for one while its
  reader goroutine has not given back the slot that was handed to it.

  * `accounts`: no step of a request changes the channel without its account.
  * `output_slots_conserved`: in every run the tokens are those accounts, at most 4; a request
    takes at most one token and gives it back once; when nothing can move any more, no token is
    left, and without new requests it comes to that.
-/
import Mathlib.Algebra.Group.Action.Defs
import OpenHpcWeb.Web.JobIsolation
import OpenHpcWeb.Web.JobOutputServer

namespace OpenHpcWeb.Web

open OpenHpcWeb.Go OpenHpcWeb.Cluster OpenHpcWeb.Lib

/-! ## Who holds a slot -/

/-- The handler has acquired a slot and has neither handed it off nor returned. -/
def HandlerPc.holdsSlot : HandlerPc → Bool
  | .lookup _ _ => true
  | .recording _ owned | .returning _ owned => owned
  | .start | .waiting _ | .responding _ | .done => false

/-- The handler has nothing but its record and its answer before it. -/
def HandlerPc.past : HandlerPc → Bool
  | .recording _ _ | .returning _ _ | .responding _ | .done => true
  | .start | .lookup _ _ | .waiting _ => false

/-- The reader goroutine has not released the slot. -/
def ReaderPc.holdsSlot : ReaderPc → Bool
  | .reading _ | .sent _ => true
  | .idle | .finished _ => false

namespace OutputParty

def held (p : OutputParty) : Nat := p.handler.holdsSlot.toNat + p.reader.holdsSlot.toNat

def acquires (p : OutputParty) : Nat := p.events.count .acquire

def releases (p : OutputParty) : Nat := p.events.count .release

/-- The handler has returned and answered, and no reader is at work. -/
def Finished (p : OutputParty) : Prop := p.handler = .done ∧ p.reader.holdsSlot = false

/-- The slot of a request: taken at most once, given back as often as it is not held. -/
structure SlotOk (p : OutputParty) : Prop where
  balance : p.acquires = p.releases + p.held
  once : p.acquires ≤ 1
  fresh : p.handler = .start → p.acquires = 0
  early : p.handler = .start ∨ p.handler.holdsSlot = true → p.reader = .idle
  handed : ∀ jobID, p.handler = .waiting jobID → p.reader ≠ .idle

theorem slotOk_arrive (call : OutputCall) : (arrive call).SlotOk where
  balance := rfl
  once := Nat.zero_le 1
  fresh _ := rfl
  early _ := rfl
  handed _ h := by cases h

/-- The handler has left the start, and the reader is at work only with a slot handed to it. -/
structure Placed (p : OutputParty) : Prop where
  start : p.handler ≠ .start
  early : p.handler.holdsSlot = true → p.reader = .idle
  handed : ∀ jobID, p.handler = .waiting jobID → p.reader ≠ .idle

theorem placed_of_past {p : OutputParty} (hpast : p.handler.past = true)
    (hearly : p.handler.holdsSlot = true → p.reader = .idle) : p.Placed where
  start heq := by
    rw [heq] at hpast
    cases hpast
  early := hearly
  handed jobID heq := by
    rw [heq] at hpast
    cases hpast

/-- While the reader is at work the handler waits for it or has gone on without it. -/
theorem SlotOk.placed_of_reader {p p' : OutputParty} (h : p.SlotOk) (hbusy : p.reader ≠ .idle)
    (hsame : p'.handler = p.handler) (hbusy' : p'.reader ≠ .idle) : p'.Placed where
  start heq := hbusy (h.early (.inl (hsame.symm.trans heq)))
  early hholds := absurd (h.early (.inr (hsame ▸ hholds))) hbusy
  handed _ _ := hbusy'

/-- A step that appends `da` acquires and `dr` releases, and leaves the start. -/
theorem SlotOk.moved {p p' : OutputParty} (h : p.SlotOk) (da dr : Nat)
    (hacquires : p'.acquires = p.acquires + da) (hreleases : p'.releases = p.releases + dr)
    (hheld : p'.held + dr = p.held + da) (honce : p.acquires + da ≤ 1) (hplaced : p'.Placed) :
    p'.SlotOk where
  balance := by
    have hbalance := h.balance
    omega
  once := by omega
  fresh heq := absurd heq hplaced.start
  early hpc := hpc.elim (fun heq => absurd heq hplaced.start) hplaced.early
  handed := hplaced.handed

/-- A step that appends no acquire and no release. -/
theorem SlotOk.quiet {p p' : OutputParty} (h : p.SlotOk) (hacquires : p'.acquires = p.acquires)
    (hreleases : p'.releases = p.releases) (hheld : p'.held = p.held) (hplaced : p'.Placed) :
    p'.SlotOk :=
  h.moved 0 0 hacquires hreleases hheld h.once hplaced

/-- A step that only records: the handler keeps what it holds. -/
theorem SlotOk.record {p : OutputParty} (h : p.SlotOk) (owned : Bool)
    (howned : p.handler.holdsSlot = owned) (hearly : owned = true → p.reader = .idle)
    (rec : Recording) : (p.record rec owned).SlotOk ∧ (p.record rec owned).held = p.held := by
  have hheld : (p.record rec owned).held = p.held := by
    rw [held, held, howned]
    rfl
  exact ⟨h.quiet rfl rfl hheld (placed_of_past rfl hearly), hheld⟩

theorem SlotOk.acquired {p : OutputParty} (h : p.SlotOk) (hpc : p.handler = .start)
    (jobID : GoInt) (job : JobLookup) :
    let p' : OutputParty :=
      { p with handler := .lookup jobID job, events := p.events ++ [.acquire] }
    p'.SlotOk ∧ p.held = 0 ∧ p'.held = 1 := by
  intro p'
  have hreader := h.early (.inl hpc)
  have hheld : p.held = 0 := by
    rw [held, hpc, hreader]
    rfl
  have hheld' : p'.held = 1 := by
    show true.toNat + p.reader.holdsSlot.toNat = 1
    rw [hreader]
    rfl
  have honce : p.acquires + 1 ≤ 1 := by
    rw [h.fresh hpc]
  have hplaced : p'.Placed := by
    refine ⟨?_, fun _ => hreader, ?_⟩
    · intro heq
      cases heq
    · intro jobID heq
      cases heq
  refine ⟨h.moved 1 0 List.count_append List.count_append ?_ honce hplaced, hheld, hheld'⟩
  rw [hheld, hheld']

/-- A release, by the handler or by the reader. -/
theorem SlotOk.released {p p' : OutputParty} (h : p.SlotOk)
    (hevents : p'.events = p.events ++ [.release]) (hheld : p'.held + 1 = p.held)
    (hplaced : p'.Placed) : p'.SlotOk := by
  have hacquires : p'.acquires = p.acquires + 0 := by
    rw [acquires, hevents]
    exact List.count_append
  have hreleases : p'.releases = p.releases + 1 := by
    rw [releases, hevents]
    exact List.count_append
  exact h.moved 0 1 hacquires hreleases hheld h.once hplaced

end OutputParty

open OutputParty

/-- One step: the request stays in order, and the channel changes as its account does. -/
theorem outputStep_slotOk {p p' : OutputParty} {taken taken' : Nat}
    (h : OutputStep p taken p' taken') (hp : p.SlotOk)
    (hcap : taken ≤ maxConcurrentJobOutputReads) :
    p'.SlotOk ∧ taken' + p.held = taken + p'.held ∧ taken' ≤ maxConcurrentJobOutputReads := by
  cases h with
  | @refuse rec hpc _ =>
    obtain ⟨hok, hheld⟩ := hp.record false (by rw [hpc]; rfl) (by simp) rec
    exact ⟨hok, by rw [hheld], hcap⟩
  | @limit jobID job hpc _ _ =>
    obtain ⟨hok, hheld⟩ := hp.record false (by rw [hpc]; rfl) (by simp)
      (p.call.refusal jobID "rate_limited" 429)
    exact ⟨hok, by rw [hheld], hcap⟩
  | @acquire jobID job hpc _ htaken =>
    obtain ⟨hok, hheld, hheld'⟩ := hp.acquired hpc jobID job
    refine ⟨hok, ?_, htaken⟩
    rw [hheld, hheld']
  | @hide jobID job rec hpc _ =>
    have hreader := hp.early (.inr (by rw [hpc]; rfl))
    obtain ⟨hok, hheld⟩ := hp.record true (by rw [hpc]; rfl) (fun _ => hreader) rec
    exact ⟨hok, by rw [hheld], hcap⟩
  | @handOff jobID lookup job hpc _ =>
    -- the account moves from the handler to the reader
    have hreader := hp.early (.inr (by rw [hpc]; rfl))
    have hheld : held { p with handler := .waiting jobID, reader := .reading job } = p.held := by
      rw [held, held, hpc, hreader]
      rfl
    refine ⟨hp.quiet rfl rfl hheld ⟨?_, ?_, ?_⟩, by rw [hheld], hcap⟩
    · intro heq
      cases heq
    · intro heq
      cases heq
    · intro jobID _ heq
      cases heq
  | @expire jobID err hpc _ =>
    obtain ⟨hok, hheld⟩ := hp.record false (by rw [hpc]; rfl) (by simp)
      (p.call.ended jobID err)
    exact ⟨hok, by rw [hheld], hcap⟩
  | @receive jobID result hpc _ _ =>
    obtain ⟨hok, hheld⟩ := hp.record false (by rw [hpc]; rfl) (by simp)
      (p.call.answer jobID result)
    exact ⟨hok, by rw [hheld], hcap⟩
  | @audit rec owned hpc =>
    have hheld : (p.audited rec owned).held = p.held := by
      rw [held, held, hpc]
      rfl
    have hplaced : (p.audited rec owned).Placed :=
      placed_of_past rfl fun howned => hp.early (.inr (by rw [hpc]; exact howned))
    refine ⟨hp.quiet ?_ ?_ hheld hplaced, by rw [hheld], hcap⟩
    · exact List.count_append.trans (Nat.add_zero _)
    · exact List.count_append.trans (Nat.add_zero _)
  | @release reply hpc htaken =>
    have hreader := hp.early (.inr (by rw [hpc]; rfl))
    have hheld : p.held = 1 := by
      rw [held, hpc, hreader]
      rfl
    have hheld' : held { p with handler := .responding reply, events := p.events ++ [.release] } =
        0 := by
      show false.toNat + p.reader.holdsSlot.toNat = 0
      rw [hreader]
      rfl
    refine ⟨hp.released rfl ?_ (placed_of_past rfl fun _ => hreader), ?_, by omega⟩
    · rw [hheld, hheld']
    · rw [hheld, hheld']
      omega
  | @leave reply hpc =>
    have hheld : held { p with handler := .responding reply } = p.held := by
      rw [held, held, hpc]
      rfl
    have hplaced : Placed { p with handler := .responding reply } :=
      placed_of_past rfl nofun
    exact ⟨hp.quiet rfl rfl hheld hplaced, by rw [hheld], hcap⟩
  | @respond reply hpc =>
    have hheld : held { p with handler := .done, events := p.events ++ [.respond reply] } =
        p.held := by
      rw [held, held, hpc]
      rfl
    have hplaced : Placed { p with handler := .done, events := p.events ++ [.respond reply] } :=
      placed_of_past rfl nofun
    refine ⟨hp.quiet ?_ ?_ hheld hplaced, by rw [hheld], hcap⟩
    · exact List.count_append.trans (Nat.add_zero _)
    · exact List.count_append.trans (Nat.add_zero _)
  | @read job hpc =>
    have hheld : held { p with reader := .sent (readJobOutput p.call.r job p.call.stream) } =
        p.held := by
      rw [held, held, hpc]
      rfl
    have hbusy : p.reader ≠ .idle := by
      rw [hpc]
      exact nofun
    exact ⟨hp.quiet rfl rfl hheld (hp.placed_of_reader hbusy rfl nofun), by rw [hheld], hcap⟩
  | @finish result hpc htaken =>
    have hheld : held { p with reader := .finished result, events := p.events ++ [.release] } + 1 =
        p.held := by
      rw [held, held, hpc]
      rfl
    have hbusy : p.reader ≠ .idle := by
      rw [hpc]
      exact nofun
    exact ⟨hp.released rfl hheld (hp.placed_of_reader hbusy rfl nofun), by omega, by omega⟩

theorem accounts : Accounts arrive partyMove SlotOk held maxConcurrentJobOutputReads where
  init call := ⟨slotOk_arrive call, rfl⟩
  move _ _ _ _ _ hp _ hcap h := outputStep_slotOk (partyMove_step h) hp hcap

/-! ## Requests come to an end -/

/-- How many steps the handler and the reader of a request have before them, at most. -/
def HandlerPc.rank : HandlerPc → Nat
  | .start => 8
  | .lookup _ _ => 7
  | .waiting _ => 4
  | .recording _ _ => 3
  | .returning _ _ => 2
  | .responding _ => 1
  | .done => 0

def ReaderPc.rank : ReaderPc → Nat
  | .reading _ => 2
  | .sent _ => 1
  | .idle | .finished _ => 0

def OutputParty.rank (p : OutputParty) : Nat := p.handler.rank + p.reader.rank

theorem outputStep_rank {p p' : OutputParty} {taken taken' : Nat}
    (h : OutputStep p taken p' taken') : p'.rank < p.rank := by
  unfold OutputParty.rank
  cases h with
  | refuse hpc _ | limit hpc _ _ | hide hpc _ | expire hpc _ | receive hpc _ _ =>
    simp only [hpc, OutputParty.record, HandlerPc.rank]
    omega
  | acquire hpc _ _ | handOff hpc _ | release hpc _ | leave hpc | respond hpc =>
    simp only [hpc, HandlerPc.rank, ReaderPc.rank]
    omega
  | audit hpc =>
    simp only [hpc, audited, HandlerPc.rank]
    omega
  | read hpc | finish hpc _ =>
    simp only [hpc, ReaderPc.rank]
    omega

theorem rank_le (p : OutputParty) : p.rank ≤ 10 := by
  unfold OutputParty.rank
  cases p.handler <;> cases p.reader <;> simp [HandlerPc.rank, ReaderPc.rank]

/-- A reader at work takes its next step: what it releases is in the channel. -/
theorem reader_moves {p : OutputParty} {taken : Nat} (hle : p.held ≤ taken)
    (hreader : p.reader.holdsSlot = true) : ∃ moved, p.readerMove taken = some moved := by
  have hheld : p.held = p.handler.holdsSlot.toNat + 1 := by
    rw [held, hreader]
    rfl
  have htaken : taken ≠ 0 := by omega
  unfold readerMove
  cases hpc : p.reader with
  | reading job => exact ⟨_, rfl⟩
  | sent result => exact ⟨_, if_neg htaken⟩
  | idle => rw [hpc] at hreader; cases hreader
  | finished result => rw [hpc] at hreader; cases hreader

/-- A handler takes its next step, unless it has answered or waits for the reader. -/
theorem handler_moves {p : OutputParty} {taken : Nat} (hle : p.held ≤ taken)
    (hdone : p.handler ≠ .done)
    (hwait : ∀ jobID, p.handler = .waiting jobID → ∃ result, p.reader.result = some result) :
    ∃ moved, p.handlerMove taken = some moved := by
  unfold handlerMove
  cases hpc : p.handler with
  | start =>
    dsimp only
    split
    · exact ⟨_, rfl⟩
    · split
      · exact ⟨_, rfl⟩
      · exact ⟨_, rfl⟩
  | lookup jobID job =>
    dsimp only
    split
    · exact ⟨_, rfl⟩
    · exact ⟨_, rfl⟩
  | waiting jobID =>
    obtain ⟨result, hresult⟩ := hwait jobID hpc
    dsimp only
    split
    · exact ⟨_, rfl⟩
    · rw [hresult]
      exact ⟨_, rfl⟩
  | recording rec owned => exact ⟨_, rfl⟩
  | returning reply owned =>
    cases owned with
    | false => exact ⟨_, rfl⟩
    | true =>
      have hheld : p.held = 1 + p.reader.holdsSlot.toNat := by
        rw [held, hpc]
        rfl
      exact ⟨_, if_neg (by omega)⟩
  | responding reply => exact ⟨_, rfl⟩
  | done => exact absurd hpc hdone

/-- A request that is not finished can take a step: it never waits for a slot. -/
theorem finished_or_moves {p : OutputParty} (hp : p.SlotOk) {taken : Nat} (hle : p.held ≤ taken) :
    p.Finished ∨ ∃ m moved, partyMove m p taken = some moved := by
  cases hreader : p.reader.holdsSlot with
  | true => exact .inr ⟨.reader, reader_moves hle hreader⟩
  | false =>
    by_cases hdone : p.handler = .done
    · exact .inl ⟨hdone, hreader⟩
    · right
      refine ⟨.handler, handler_moves hle hdone fun jobID hpc => ?_⟩
      have hidle := hp.handed jobID hpc
      cases hstate : p.reader with
      | idle => exact absurd hstate hidle
      | reading job => rw [hstate] at hreader; cases hreader
      | sent result => exact ⟨result, rfl⟩
      | finished result => exact ⟨result, rfl⟩

/-! ## Conservation -/

theorem held_of_finished {p : OutputParty} (h : p.Finished) : p.held = 0 := by
  rw [held, h.1, h.2]
  rfl

/-- Where no party can move, all requests are finished. -/
theorem finished_of_stuck {s : Pool OutputParty}
    (hs : s.Balanced SlotOk held maxConcurrentJobOutputReads)
    (hstuck : ∀ i m, outputStep s (.move i m) = none) : ∀ p ∈ s.parties, p.Finished := by
  intro p hp
  have hle : p.held ≤ s.tokens := by
    rw [hs.tokens]
    exact le_sum_map held hp
  rcases finished_or_moves (hs.parties p hp) hle with hfinished | ⟨m, moved, hmoved⟩
  · exact hfinished
  · obtain ⟨i, hi⟩ := List.mem_iff_getElem?.mp hp
    have hnone := hstuck i m
    simp only [outputStep, poolStep, hi, hmoved] at hnone
    cases hnone

/-- In every run of requests the tokens of `jobOutputSlots` are one for each handler that has
    acquired a slot and has neither handed it off nor returned, and one for each reader that has
    not released its own; they are at most 4. A request acquires at most one and releases it
    once, at the latest when it is finished; where nothing can move no token is left, and
    requests of which no new ones arrive come to that. -/
theorem output_slots_conserved {acts : List (PoolAction OutputCall OutputActor)}
    {s : Pool OutputParty} (hrun : Run outputStep (fun _ _ => True) Pool.empty acts s) :
    s.tokens = s.parties.countP (fun p => p.handler.holdsSlot) +
        s.parties.countP (fun p => p.reader.holdsSlot) ∧
      s.tokens ≤ 4 ∧
      (∀ p ∈ s.parties, p.acquires ≤ 1 ∧ p.releases ≤ p.acquires ∧
        (p.Finished → p.releases = p.acquires)) ∧
      ((∀ i m, outputStep s (.move i m) = none) → s.tokens = 0 ∧ ∀ p ∈ s.parties, p.Finished) ∧
      ∀ moves s', Run outputStep (fun _ act => act.IsMove) s moves s' →
        moves.length ≤ 10 * s.parties.length := by
  have hs := accounts.reachable hrun
  refine ⟨?_, hs.bound, fun p hp => ?_, fun hstuck => ?_, fun moves s' hmoves => ?_⟩
  · rw [hs.tokens, countP_add_countP]
    rfl
  · have hok := hs.parties p hp
    have hbalance := hok.balance
    refine ⟨hok.once, by omega, fun hfinished => ?_⟩
    have hheld := held_of_finished hfinished
    omega
  · have hfinished := finished_of_stuck hs hstuck
    refine ⟨?_, hfinished⟩
    rw [hs.tokens]
    apply List.sum_eq_zero
    intro n hn
    obtain ⟨p, hp, rfl⟩ := List.mem_map.mp hn
    exact held_of_finished (hfinished p hp)
  · have hle := moves_le OutputParty.rank
      (fun m p n p' n' h => outputStep_rank (partyMove_step h)) hmoves
    have hsum : (s.parties.map OutputParty.rank).sum ≤ (s.parties.map OutputParty.rank).length • 10 := by
      apply List.sum_le_card_nsmul
      intro n hn
      obtain ⟨p, -, rfl⟩ := List.mem_map.mp hn
      exact rank_le p
    rw [List.length_map, smul_eq_mul] at hsum
    omega

/-- A request of alice whose reader is slower than the limit. -/
def slowCall : OutputCall where
  r := { aliceRequest with waitContext := some .deadlineExceeded }
  provider := some fun _ => .ok (some (plainJob "7" "alice"))
  id := "7"
  stream := "stdout"

/-- It is answered while its reader is still at work. -/
def slowActs : List (PoolAction OutputCall OutputActor) :=
  .join slowCall :: List.replicate 6 (.move 0 .handler)

theorem slowActs_run : (exec outputStep (fun _ _ => true) Pool.empty slowActs).isSome := by
  decide +kernel

theorem output_slots_conserved_slow :
    let s := (exec outputStep (fun _ _ => true) Pool.empty slowActs).get slowActs_run
    s.tokens = 1 ∧ s.parties.countP (fun p => p.handler.holdsSlot) = 0 ∧
      s.tokens = s.parties.countP (fun p => p.handler.holdsSlot) +
        s.parties.countP (fun p => p.reader.holdsSlot) ∧ s.tokens ≤ 4 := by
  have h := output_slots_conserved ((run_exec_get slowActs_run).mono fun _ _ _ => trivial)
  exact ⟨by decide +kernel, by decide +kernel, h.1, h.2.1⟩

end OpenHpcWeb.Web
