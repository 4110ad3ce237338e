/-
  Programs that share the slots of a semaphore.

  `withSlot` runs a program while it holds a slot; when none is free, it asks nothing and gives
  up at once. The programs run together: each step answers the question of one of them. The
  semaphore answers the questions about slots, the environment all others.

  * `Program.Bracketed`: the program takes a slot only when it holds none, gives back only what
    it holds, ends without one, and asks the questions of `inner` only while it holds one.
    Sequences and branches of programs with `withSlot` are bracketed.
  * `clients_reachable`: in every run of bracketed programs the taken slots are those that the
    programs hold, within the bound; what each program has asked is one of its histories.
  * `Client.Ok.ensures`: so a program that is done has kept its postcondition.
  * `asking_le`: the questions of `inner` that are open at a time are at most the slots.
  * `clientMove_enabled`, `clientStep_enter`: a program that is not done can always go on, and
    gets the slot it asks for exactly if fewer than all are held.
-/
import OpenHpcWeb.Lib.Program
import OpenHpcWeb.Lib.Tokens

namespace OpenHpcWeb.Lib

variable {Q : Type} {A : Q → Type} {α β κ : Type}

/-- The questions of a program with slots: `enter` is granted or not. -/
inductive Slotted (Q : Type) where
  | enter
  | leave
  | other (q : Q)
  deriving DecidableEq

@[reducible] def Slotted.Answer (A : Q → Type) : Slotted Q → Type
  | .enter => Bool
  | .leave => Unit
  | .other q => A q

/-- Programs with slots. -/
abbrev SlotProgram (Q : Type) (A : Q → Type) (α : Type) :=
  Program (Slotted Q) (Slotted.Answer A) α

/-- What a program with slots has asked. -/
abbrev SlotHistory (Q : Type) (A : Q → Type) := List (Exchange (Slotted Q) (Slotted.Answer A))

namespace Program

/-- A question that is not about slots. -/
def other (q : Q) : SlotProgram Q A (A q) := .ask (.other q) .done

/-- A program without slots. -/
def lift : Program Q A α → SlotProgram Q A α
  | .done a => .done a
  | .ask q next => .ask (.other q) fun r => (next r).lift

/-- The operation under a slot, or nothing. -/
def withSlot (operation : Program Q A α) : SlotProgram Q A (Option α) :=
  .ask .enter fun granted =>
    if granted then operation.lift >>= fun a => .ask .leave fun _ => .done (some a)
    else .done none

@[simp] theorem other_bind (q : Q) (f : A q → SlotProgram Q A β) :
    (other q >>= f) = .ask (.other q) f := rfl

/-! ## Bracketed programs -/

variable {inner : Q → Bool}

/-- From holding a slot or not to holding one or not. -/
def Bracketed (inner : Q → Bool) : Bool → Bool → SlotProgram Q A α → Prop
  | holds, ends, .done _ => holds = ends
  | holds, ends, .ask .enter next => holds = false ∧
      ∀ granted : Bool, (next granted).Bracketed inner granted ends
  | holds, ends, .ask .leave next => holds = true ∧ (next ()).Bracketed inner false ends
  | holds, ends, .ask (.other q) next => (inner q = true → holds = true) ∧
      ∀ r, (next r).Bracketed inner holds ends

theorem bracketed_done {b : Bool} (a : α) :
    (Program.done a : SlotProgram Q A α).Bracketed inner b b := by
  simp [Bracketed]

theorem bracketed_other {b e : Bool} {q : Q} {next : A q → SlotProgram Q A α}
    (hq : inner q = true → b = true) (hnext : ∀ r, (next r).Bracketed inner b e) :
    Bracketed inner b e (.ask (.other q) next) := by
  rw [Bracketed]
  exact ⟨hq, hnext⟩

theorem bracketed_bind {b m e : Bool} {p : SlotProgram Q A α} {f : α → SlotProgram Q A β}
    (hp : p.Bracketed inner b m) (hf : ∀ a, (f a).Bracketed inner m e) :
    (p >>= f).Bracketed inner b e := by
  induction p generalizing b with
  | done a =>
    rw [Bracketed] at hp
    rw [hp]
    exact hf a
  | ask q next ih =>
    cases q with
    | enter =>
      rw [Bracketed] at hp
      rw [ask_bind, Bracketed]
      exact ⟨hp.1, fun granted => ih granted (hp.2 granted)⟩
    | leave =>
      rw [Bracketed] at hp
      rw [ask_bind, Bracketed]
      exact ⟨hp.1, ih () hp.2⟩
    | other q =>
      rw [Bracketed] at hp
      rw [ask_bind, Bracketed]
      exact ⟨hp.1, fun r => ih r (hp.2 r)⟩

/-- Under a slot a program may ask everything. -/
theorem bracketed_lift (p : Program Q A α) : p.lift.Bracketed inner true true := by
  induction p with
  | done a => exact bracketed_done a
  | ask q next ih => exact bracketed_other (fun _ => rfl) ih

theorem bracketed_withSlot (operation : Program Q A α) :
    operation.withSlot.Bracketed inner false false := by
  rw [withSlot, Bracketed]
  refine ⟨rfl, fun granted => ?_⟩
  cases granted with
  | false => exact bracketed_done none
  | true =>
    refine bracketed_bind (bracketed_lift operation) fun a => ?_
    rw [Bracketed]
    exact ⟨rfl, bracketed_done (some a)⟩

/-! ## What an operation under a slot ensures -/

/-- The questions of a program without slots, as those of one with slots. -/
def liftHistory (h : List (Exchange Q A)) : SlotHistory Q A :=
  h.map fun x => ⟨.other x.1, x.2⟩

theorem ensures_lift {p : Program Q A α} {post : SlotHistory Q A → α → Prop} :
    p.lift.Ensures post ↔ p.Ensures fun h a => post (liftHistory h) a := by
  induction p generalizing post with
  | done a => rfl
  | ask q next ih => exact forall_congr' fun r => ih r

/-- Either no slot is free, or the operation runs between taking and giving back a slot. -/
theorem ensures_withSlot {operation : Program Q A α}
    {post : SlotHistory Q A → Option α → Prop} :
    operation.withSlot.Ensures post ↔ post [⟨.enter, false⟩] none ∧
      operation.Ensures fun h a =>
        post (⟨.enter, true⟩ :: liftHistory h ++ [⟨.leave, ()⟩]) (some a) := by
  have hgranted : ∀ post' : SlotHistory Q A → Option α → Prop,
      (operation.lift >>= fun a => .ask .leave fun _ => .done (some a) :
        SlotProgram Q A (Option α)).Ensures post' ↔
        operation.Ensures fun h a => post' (liftHistory h ++ [⟨.leave, ()⟩]) (some a) := by
    intro post'
    rw [ensures_bind, ensures_lift]
    have hleave : ∀ (h : List (Exchange Q A)) (a : α),
        ((Program.ask .leave fun _ => .done (some a) : SlotProgram Q A (Option α)).Ensures
          fun h' b => post' (liftHistory h ++ h') b) ↔
          post' (liftHistory h ++ [⟨.leave, ()⟩]) (some a) := by
      intro h a
      exact ⟨fun hall => hall (), fun hpost _ => hpost⟩
    simp only [hleave]
  constructor
  · intro h
    exact ⟨h false, (hgranted _).mp (h true)⟩
  · rintro ⟨hbusy, hrun⟩ granted
    cases granted with
    | false => exact hbusy
    | true => exact (hgranted _).mpr hrun

end Program

/-! ## Programs that run together -/

/-- Whether a program holds a slot after what it has asked. -/
def holding (h : SlotHistory Q A) : Bool :=
  h.foldl (fun held x =>
    match x with
    | ⟨.enter, granted⟩ => granted
    | ⟨.leave, _⟩ => false
    | ⟨.other _, _⟩ => held) false

@[simp] theorem holding_nil : holding ([] : SlotHistory Q A) = false := rfl

@[simp] theorem holding_enter (h : SlotHistory Q A) (granted : Bool) :
    holding (h ++ [⟨.enter, granted⟩]) = granted := by
  rw [holding, List.foldl_append]
  rfl

@[simp] theorem holding_leave (h : SlotHistory Q A) (r : Unit) :
    holding (h ++ [⟨.leave, r⟩]) = false := by
  rw [holding, List.foldl_append]
  rfl

@[simp] theorem holding_other (h : SlotHistory Q A) (q : Q) (r : A q) :
    holding (h ++ [⟨.other q, r⟩]) = holding h := by
  rw [holding, List.foldl_append]
  rfl

/-- A program at work: the request it works on, what is left of it, and what it has asked. -/
structure Client (κ : Type) (Q : Type) (A : Q → Type) (α : Type) where
  request : κ
  rest : SlotProgram Q A α
  history : SlotHistory Q A

namespace Client

def start (program : κ → SlotProgram Q A α) (k : κ) : Client κ Q A α := ⟨k, program k, []⟩

/-- The program goes on with an answer. -/
def told (c : Client κ Q A α) (x : Exchange (Slotted Q) (Slotted.Answer A))
    (rest : SlotProgram Q A α) : Client κ Q A α :=
  { c with rest := rest, history := c.history ++ [x] }

/-- The result, when the program is done. -/
def result (c : Client κ Q A α) : Option α :=
  match c.rest with
  | .done a => some a
  | .ask _ _ => none

theorem result_eq_some {c : Client κ Q A α} {a : α} (h : c.result = some a) :
    c.rest = .done a := by
  unfold result at h
  split at h
  · next hrest => rw [hrest, Option.some.inj h]
  · cases h

/-- The program waits for the answer to a question of `inner`. -/
def asking (inner : Q → Bool) (c : Client κ Q A α) : Bool :=
  match c.rest with
  | .ask (.other q) _ => inner q
  | _ => false

end Client

/-- A step of a program: taking a slot fails when none is free, giving one back waits for one
    to be taken. -/
def clientMove (cap : Nat) (answers : (q : Q) → A q) (c : Client κ Q A α) (taken : Nat) :
    Option (Client κ Q A α × Nat) :=
  match c.rest with
  | .done _ => none
  | .ask .enter next =>
    if taken < cap then some (c.told ⟨.enter, true⟩ (next true), taken + 1)
    else some (c.told ⟨.enter, false⟩ (next false), taken)
  | .ask .leave next =>
    if taken = 0 then none else some (c.told ⟨.leave, ()⟩ (next ()), taken - 1)
  | .ask (.other q) next => some (c.told ⟨.other q, answers q⟩ (next (answers q)), taken)

/-- Requests arrive, and their programs take their steps. -/
def clientStep (cap : Nat) (program : κ → SlotProgram Q A α) :
    Pool (Client κ Q A α) → PoolAction κ ((q : Q) → A q) → Option (Pool (Client κ Q A α)) :=
  poolStep (Client.start program) (clientMove cap)

variable {program : κ → SlotProgram Q A α} {inner : Q → Bool} {cap : Nat}

/-- What holds of a program at work. -/
structure Client.Ok (program : κ → SlotProgram Q A α) (inner : Q → Bool) (c : Client κ Q A α) :
    Prop where
  leads : Leads (program c.request) c.history c.rest
  bracketed : c.rest.Bracketed inner (holding c.history) false

theorem told_leads {c : Client κ Q A α} {q : Slotted Q}
    {next : Slotted.Answer A q → SlotProgram Q A α}
    (h : Leads (program c.request) c.history (.ask q next)) (r : Slotted.Answer A q) :
    Leads (program (c.told ⟨q, r⟩ (next r)).request) (c.told ⟨q, r⟩ (next r)).history
      (c.told ⟨q, r⟩ (next r)).rest :=
  h.snoc r

/-- What a step of a program can do. -/
inductive ClientStep (cap : Nat) (c : Client κ Q A α) (taken : Nat) : Client κ Q A α → Nat → Prop
  | enter {next : Bool → SlotProgram Q A α} : c.rest = .ask .enter next → taken < cap →
      ClientStep cap c taken (c.told ⟨.enter, true⟩ (next true)) (taken + 1)
  | busy {next : Bool → SlotProgram Q A α} : c.rest = .ask .enter next → cap ≤ taken →
      ClientStep cap c taken (c.told ⟨.enter, false⟩ (next false)) taken
  | leave {next : Unit → SlotProgram Q A α} : c.rest = .ask .leave next → 0 < taken →
      ClientStep cap c taken (c.told ⟨.leave, ()⟩ (next ())) (taken - 1)
  | other {q : Q} {next : A q → SlotProgram Q A α} (r : A q) : c.rest = .ask (.other q) next →
      ClientStep cap c taken (c.told ⟨.other q, r⟩ (next r)) taken

theorem clientMove_step {cap taken taken' : Nat} {answers : (q : Q) → A q} {c c' : Client κ Q A α}
    (h : clientMove cap answers c taken = some (c', taken')) :
    ClientStep cap c taken c' taken' := by
  unfold clientMove at h
  split at h
  · cases h
  · next hrest =>
    split at h
    · next hfree => cases h; exact .enter hrest hfree
    · next hfull => cases h; exact .busy hrest (Nat.le_of_not_lt hfull)
  · next hrest =>
    split at h
    · cases h
    · next htaken => cases h; exact .leave hrest (Nat.pos_of_ne_zero htaken)
  · next q next hrest => cases h; exact .other (answers q) hrest

theorem ClientStep.ok {c c' : Client κ Q A α} {taken taken' : Nat}
    (hstep : ClientStep cap c taken c' taken') (hc : c.Ok program inner) : c'.Ok program inner := by
  obtain ⟨hleads, hbracketed⟩ := hc
  cases hstep with
  | enter hrest _ =>
    rw [hrest] at hleads hbracketed
    rw [Program.Bracketed] at hbracketed
    exact ⟨told_leads hleads true, by simpa [Client.told] using hbracketed.2 true⟩
  | busy hrest _ =>
    rw [hrest] at hleads hbracketed
    rw [Program.Bracketed] at hbracketed
    exact ⟨told_leads hleads false, by simpa [Client.told] using hbracketed.2 false⟩
  | leave hrest _ =>
    rw [hrest] at hleads hbracketed
    rw [Program.Bracketed] at hbracketed
    exact ⟨told_leads hleads (), by simpa [Client.told] using hbracketed.2⟩
  | other r hrest =>
    rw [hrest] at hleads hbracketed
    rw [Program.Bracketed] at hbracketed
    exact ⟨told_leads hleads r, by simpa [Client.told] using hbracketed.2 r⟩

/-- The slots that a program takes and gives back are those it holds. -/
theorem clients_account (hprogram : ∀ k, (program k).Bracketed inner false false) :
    Accounts (Client.start program) (clientMove (A := A) cap) (Client.Ok program inner)
      (fun c => (holding c.history).toNat) cap := by
  constructor
  · intro k
    exact ⟨⟨.nil, hprogram k⟩, rfl⟩
  · intro answers c taken c' taken' hc hheld hle hmove
    have hstep := clientMove_step hmove
    have hbracketed := hc.bracketed
    refine ⟨hstep.ok hc, ?_⟩
    cases hstep with
    | enter hrest hfree =>
      rw [hrest, Program.Bracketed] at hbracketed
      simp only [Client.told, holding_enter, hbracketed.1]
      exact ⟨rfl, hfree⟩
    | busy hrest _ =>
      rw [hrest, Program.Bracketed] at hbracketed
      simp only [Client.told, holding_enter, hbracketed.1]
      exact ⟨trivial, hle⟩
    | leave hrest htaken =>
      rw [hrest, Program.Bracketed] at hbracketed
      simp only [Client.told, holding_leave, hbracketed.1, Bool.toNat_true, Bool.toNat_false]
      omega
    | other r hrest =>
      simp only [Client.told, holding_other]
      exact ⟨trivial, hle⟩

/-- The state of bracketed programs that run together. -/
abbrev ClientsOk (program : κ → SlotProgram Q A α) (inner : Q → Bool) (cap : Nat)
    (s : Pool (Client κ Q A α)) : Prop :=
  s.Balanced (Client.Ok program inner) (fun c => (holding c.history).toNat) cap

theorem clients_reachable (hprogram : ∀ k, (program k).Bracketed inner false false)
    {acts : List (PoolAction κ ((q : Q) → A q))} {s : Pool (Client κ Q A α)}
    (hrun : Run (clientStep cap program) (fun _ _ => True) Pool.empty acts s) :
    ClientsOk program inner cap s :=
  (clients_account hprogram).reachable hrun

/-- A program asks the questions of `inner` only while it holds a slot. -/
theorem Client.Ok.asking_holds {c : Client κ Q A α} (hc : c.Ok program inner)
    (hasking : c.asking inner = true) : holding c.history = true := by
  unfold Client.asking at hasking
  split at hasking
  · next hrest =>
    have hbracketed := hc.bracketed
    rw [hrest, Program.Bracketed] at hbracketed
    exact hbracketed.1 hasking
  · cases hasking

theorem Client.Ok.done_free {c : Client κ Q A α} (hc : c.Ok program inner) {a : α}
    (hdone : c.rest = .done a) : holding c.history = false := by
  have hbracketed := hc.bracketed
  rw [hdone, Program.Bracketed] at hbracketed
  exact hbracketed

/-- The postcondition of a program, when it is done. -/
theorem Client.Ok.ensures {c : Client κ Q A α} (hc : c.Ok program inner)
    {post : SlotHistory Q A → α → Prop} (hpost : (program c.request).Ensures post) {a : α}
    (ha : c.result = some a) : post c.history a := by
  have hleads := hc.leads
  rw [Client.result_eq_some ha] at hleads
  exact hleads.ensures_done hpost

theorem countP_eq_sum (p : α → Bool) (l : List α) :
    l.countP p = (l.map fun a => (p a).toNat).sum := by
  have hsum := countP_add_countP p (fun _ => false) l
  simpa using hsum

/-- The taken slots, counted by the programs that hold one. -/
theorem ClientsOk.tokens_eq {s : Pool (Client κ Q A α)} (hs : ClientsOk program inner cap s) :
    s.tokens = s.parties.countP fun c => holding c.history := by
  rw [countP_eq_sum]
  exact hs.tokens

/-- The open questions of `inner` are within the slots. -/
theorem ClientsOk.asking_le {s : Pool (Client κ Q A α)} (hs : ClientsOk program inner cap s) :
    s.parties.countP (Client.asking inner) ≤ cap := by
  refine le_trans (List.countP_mono_left fun c hc hasking => ?_) (hs.tokens_eq ▸ hs.bound)
  exact (hs.parties c hc).asking_holds hasking

/-- No program waits for a slot, nor to give one back. -/
theorem clientMove_enabled {s : Pool (Client κ Q A α)} (hs : ClientsOk program inner cap s)
    {c : Client κ Q A α} (hc : c ∈ s.parties) (hrest : ∀ a, c.rest ≠ .done a)
    (answers : (q : Q) → A q) : (clientMove cap answers c s.tokens).isSome := by
  unfold clientMove
  split
  · next a hdone => exact absurd hdone (hrest a)
  · split <;> rfl
  · next hleave =>
    have hbracketed := (hs.parties c hc).bracketed
    rw [hleave, Program.Bracketed] at hbracketed
    have hpos : 0 < s.tokens := by
      rw [hs.tokens_eq]
      exact List.countP_pos_iff.mpr ⟨c, hc, hbracketed.1⟩
    rw [if_neg (Nat.ne_of_gt hpos)]
    rfl
  · rfl

/-- A program that asks for a slot gets one exactly if fewer than all are held. -/
theorem clientStep_enter {s s' : Pool (Client κ Q A α)} (hs : ClientsOk program inner cap s)
    {i : Nat} {c : Client κ Q A α} {next : Bool → SlotProgram Q A α} {answers : (q : Q) → A q}
    (hi : s.parties[i]? = some c) (hrest : c.rest = .ask .enter next)
    (hstep : clientStep cap program s (.move i answers) = some s') :
    s'.parties[i]? = some (c.told
      ⟨.enter, decide (s.parties.countP (fun c => holding c.history) < cap)⟩
      (next (decide (s.parties.countP (fun c => holding c.history) < cap)))) := by
  obtain ⟨c', c'', n, hc', hmove, rfl⟩ := poolStep_move hstep
  obtain rfl : c = c' := Option.some.inj (hi.symm.trans hc')
  have hlt : i < s.parties.length := (List.getElem?_eq_some_iff.mp hi).1
  rw [← hs.tokens_eq]
  show (s.parties.set i c'')[i]? = _
  rw [List.getElem?_set_self hlt]
  simp only [clientMove, hrest] at hmove
  split at hmove
  · next hfree =>
    cases hmove
    rw [decide_eq_true hfree]
  · next hfull =>
    cases hmove
    rw [decide_eq_false hfull]

end OpenHpcWeb.Lib
