/-
  `valueCache` of internal/slurm/cache.go as a state machine: one cache, any number of
  `get` calls, and `invalidate` calls between their steps.

  A caller of the model is one `get` call together with its context. Its program counter
  (`Pc`) is where the call stands between two atomic steps; the atomic steps are the two
  critical sections of `get`, the start and the end of the loader, and the operations on
  the `refreshing` channel. `Client.Snapshot` (client.go) is the same loop over the fields
  `lastAttempt`, `lastMetrics`, `lastErr` and `refreshing` of the client.

  Channels are numbered in the order in which `make(chan struct{})` makes them, and
  `closed ch` counts how often channel `ch` was closed. The zero `time.Time` of
  `lastAttempt` is `none`. Loaders are arbitrary: `finish` lets a running loader end with
  any value and error. `blame e = some k` says that `e` is an error caused by the
  cancellation of the context of `k` and by nothing else; a loader sees only the context
  of its own caller, so it returns such an error only for that caller, after the
  cancellation.

  History, which the code does not hold: `steps` numbers the steps taken, `log` the loads
  that have ended, `calledAt` and `invalidatedAt` when the calls began.

  `Acts` lists what a step can do, with its guard; `cacheStep_cases` reads it off the step.
-/
import Mathlib.Logic.Function.Basic
import Mathlib.Tactic.Common
import OpenHpcWeb.Lib.Run

namespace OpenHpcWeb.Slurm

open OpenHpcWeb.Lib

/-- What a loader hands back: Go returns the value and the error side by side. -/
structure Outcome (T E : Type) where
  value : T
  err : Option E
  deriving DecidableEq

/-- A load that has ended. `live` is whether its caller's context was still live when the
    result was published, `endedAt` the clock reading of that moment. -/
structure Load (T E C : Type) where
  chan : Nat
  caller : C
  startedAt : Nat
  out : Outcome T E
  live : Bool
  endedAt : Nat
  deriving DecidableEq

/-- The fields of `valueCache`. `loadedBy` is history: the load whose result is held. -/
structure ValueCache (T E C : Type) where
  ttl : Nat
  lastAttempt : Option Nat
  value : T
  err : Option E
  refreshing : Option Nat
  loadedBy : Option (Load T E C)

/-- Where a returned value came from: the caller's own load, or a stored result read at a
    clock reading. -/
inductive Source (T E C : Type) where
  | own (l : Load T E C)
  | stored (l : Option (Load T E C)) (readAt : Nat)
  deriving DecidableEq

/-- The load behind a returned value. -/
def Source.load {T E C : Type} : Source T E C → Option (Load T E C)
  | .own l => some l
  | .stored l _ => l

/-- Where a `get` call stands. -/
inductive Pc (T E C : Type) where
  | idle
  | atLock
  | waiting (refresh : Nat)
  | loading (refresh startedAt : Nat)
  | loaded (refresh startedAt : Nat) (out : Outcome T E)
  | unlocked (l : Load T E C)
  | returned (out : Outcome T E) (source : Source T E C)
  | returnedCtxErr
  deriving DecidableEq

/-- The call is the leader: it has set `refreshing` and not yet cleared it. -/
def Pc.Leads {T E C : Type} : Pc T E C → Prop
  | .loading _ _ => True
  | .loaded _ _ _ => True
  | _ => False

structure CacheState (T E C : Type) where
  cache : ValueCache T E C
  made : Nat
  closed : Nat → Nat
  pc : C → Pc T E C
  /-- `parent.Err() != nil` -/
  done : C → Bool
  clock : Nat
  steps : Nat
  log : List (Load T E C)
  calledAt : C → Nat
  invalidatedAt : List Nat

inductive CacheAction (T E C : Type) where
  | call (c : C)
  | lock (c : C)
  | wake (c : C)
  | giveUp (c : C)
  | finish (c : C) (out : Outcome T E)
  | publish (c : C)
  | leave (c : C)
  | cancel (c : C)
  | invalidate
  | tick (d : Nat)

variable {T E C : Type}

/-- `time.Since(c.lastAttempt) < c.ttl` with a load attempted: the entry is returned as it is. -/
def ValueCache.fresh (v : ValueCache T E C) (now : Nat) : Bool :=
  match v.lastAttempt with
  | none => false
  | some t => now - t < v.ttl

/-- The cache of a new client. -/
def CacheState.init (ttl : Nat) (zero : T) : CacheState T E C where
  cache := ⟨ttl, none, zero, none, none, none⟩
  made := 0
  closed _ := 0
  pc _ := .idle
  done _ := false
  clock := 0
  steps := 0
  log := []
  calledAt _ := 0
  invalidatedAt := []

section Step

variable [DecidableEq C]

def CacheState.goto (s : CacheState T E C) (c : C) (pc : Pc T E C) : CacheState T E C :=
  { s with pc := Function.update s.pc c pc }

/-- The first critical section of `get`: return the entry, wait for the load in flight, or
    become the leader. -/
def CacheState.lockEntry (s : CacheState T E C) (c : C) : CacheState T E C :=
  if s.cache.fresh s.clock then
    s.goto c (.returned ⟨s.cache.value, s.cache.err⟩ (.stored s.cache.loadedBy s.clock))
  else
    match s.cache.refreshing with
    | some refresh => s.goto c (.waiting refresh)
    | none =>
      { s.goto c (.loading s.made s.steps) with
        cache := { s.cache with refreshing := some s.made }
        made := s.made + 1 }

/-- The second critical section: store the result unless the context has ended, clear
    `refreshing` and close the channel. -/
def CacheState.publish (s : CacheState T E C) (c : C) (ch st : Nat) (out : Outcome T E) :
    CacheState T E C :=
  let l : Load T E C := ⟨ch, c, st, out, !s.done c, s.clock⟩
  let cache :=
    if s.done c then s.cache
    else { s.cache with
      lastAttempt := some s.clock, value := out.value, err := out.err, loadedBy := some l }
  { s.goto c (.unlocked l) with
    cache := { cache with refreshing := none }
    closed := Function.update s.closed ch (s.closed ch + 1)
    log := l :: s.log }

/-- The loader of `c` returns an error blamed on a cancellation only for `c` itself. -/
def honest (blame : E → Option C) (s : CacheState T E C) (c : C) (out : Outcome T E) : Bool :=
  match out.err.bind blame with
  | none => true
  | some k => decide (k = c) && s.done c

/-- One atomic step, without the step counter. -/
def cacheAct (blame : E → Option C) (s : CacheState T E C) :
    CacheAction T E C → Option (CacheState T E C)
  | .call c =>
    match s.pc c with
    | .idle => some { s.goto c .atLock with calledAt := Function.update s.calledAt c s.steps }
    | _ => none
  | .lock c =>
    match s.pc c with
    | .atLock => some (s.lockEntry c)
    | _ => none
  | .wake c =>
    match s.pc c with
    | .waiting ch => if s.closed ch = 0 then none else some (s.goto c .atLock)
    | _ => none
  | .giveUp c =>
    match s.pc c with
    | .waiting _ => if s.done c then some (s.goto c .returnedCtxErr) else none
    | _ => none
  | .finish c out =>
    match s.pc c with
    | .loading ch st => if honest blame s c out then some (s.goto c (.loaded ch st out)) else none
    | _ => none
  | .publish c =>
    match s.pc c with
    | .loaded ch st out => some (s.publish c ch st out)
    | _ => none
  | .leave c =>
    match s.pc c with
    | .unlocked l =>
      some (s.goto c (if s.done c then .returnedCtxErr else .returned l.out (.own l)))
    | _ => none
  | .cancel c => some { s with done := Function.update s.done c true }
  | .invalidate =>
    some { s with
      cache := { s.cache with lastAttempt := none }
      invalidatedAt := s.steps :: s.invalidatedAt }
  | .tick d => some { s with clock := s.clock + d }

/-- One atomic step of the cache. -/
def cacheStep (blame : E → Option C) (s : CacheState T E C) (a : CacheAction T E C) :
    Option (CacheState T E C) :=
  (cacheAct blame s a).map fun s' => { s' with steps := s.steps + 1 }

end Step

/-! ## What a step can do -/

section Inversion

variable [DecidableEq C]

/-- The steps by what they do: every guard, and the state after it. -/
inductive Acts (blame : E → Option C) (s : CacheState T E C) :
    CacheAction T E C → CacheState T E C → Prop
  | call {c} (hpc : s.pc c = .idle) : Acts blame s (.call c)
      { s.goto c .atLock with calledAt := Function.update s.calledAt c s.steps }
  | hit {c} (hpc : s.pc c = .atLock) (hf : s.cache.fresh s.clock = true) :
      Acts blame s (.lock c)
        (s.goto c (.returned ⟨s.cache.value, s.cache.err⟩ (.stored s.cache.loadedBy s.clock)))
  | join {c ch} (hpc : s.pc c = .atLock) (hf : s.cache.fresh s.clock = false)
      (hr : s.cache.refreshing = some ch) : Acts blame s (.lock c) (s.goto c (.waiting ch))
  | lead {c} (hpc : s.pc c = .atLock) (hf : s.cache.fresh s.clock = false)
      (hr : s.cache.refreshing = none) : Acts blame s (.lock c)
        { s.goto c (.loading s.made s.steps) with
          cache := { s.cache with refreshing := some s.made }, made := s.made + 1 }
  | wake {c ch} (hpc : s.pc c = .waiting ch) (hc : s.closed ch ≠ 0) :
      Acts blame s (.wake c) (s.goto c .atLock)
  | giveUp {c ch} (hpc : s.pc c = .waiting ch) (hd : s.done c = true) :
      Acts blame s (.giveUp c) (s.goto c .returnedCtxErr)
  | finish {c ch st out} (hpc : s.pc c = .loading ch st) (hh : honest blame s c out = true) :
      Acts blame s (.finish c out) (s.goto c (.loaded ch st out))
  | publish {c ch st out} (hpc : s.pc c = .loaded ch st out) :
      Acts blame s (.publish c) (s.publish c ch st out)
  | leaveCtx {c l} (hpc : s.pc c = .unlocked l) (hd : s.done c = true) :
      Acts blame s (.leave c) (s.goto c .returnedCtxErr)
  | leave {c l} (hpc : s.pc c = .unlocked l) (hd : s.done c = false) :
      Acts blame s (.leave c) (s.goto c (.returned l.out (.own l)))
  | cancel (c) : Acts blame s (.cancel c) { s with done := Function.update s.done c true }
  | invalidate : Acts blame s .invalidate
      { s with
        cache := { s.cache with lastAttempt := none }
        invalidatedAt := s.steps :: s.invalidatedAt }
  | tick (d) : Acts blame s (.tick d) { s with clock := s.clock + d }

theorem acts_of_cacheAct {blame : E → Option C} {s s' : CacheState T E C}
    {a : CacheAction T E C} (h : cacheAct blame s a = some s') : Acts blame s a s' := by
  cases a with
  | call c =>
    simp only [cacheAct] at h
    split at h
    · next hpc => cases h; exact .call hpc
    · cases h
  | lock c =>
    simp only [cacheAct] at h
    split at h
    · next hpc =>
      simp only [Option.some.injEq] at h
      subst h
      unfold CacheState.lockEntry
      split
      · next hf => exact .hit hpc hf
      · next hf =>
        simp only [Bool.not_eq_true] at hf
        split
        · next ch hr => exact .join hpc hf hr
        · next hr => exact .lead hpc hf hr
    · cases h
  | wake c =>
    simp only [cacheAct] at h
    split at h
    · next ch hpc =>
      split at h
      · cases h
      · next hc => cases h; exact .wake hpc hc
    · cases h
  | giveUp c =>
    simp only [cacheAct] at h
    split at h
    · next ch hpc =>
      split at h
      · next hd => cases h; exact .giveUp hpc hd
      · cases h
    · cases h
  | finish c out =>
    simp only [cacheAct] at h
    split at h
    · next ch st hpc =>
      split at h
      · next hh => cases h; exact .finish hpc hh
      · cases h
    · cases h
  | publish c =>
    simp only [cacheAct] at h
    split at h
    · next ch st out hpc => cases h; exact .publish hpc
    · cases h
  | leave c =>
    simp only [cacheAct] at h
    split at h
    · next l hpc =>
      simp only [Option.some.injEq] at h
      subst h
      split
      · next hd => exact .leaveCtx hpc hd
      · next hd => exact .leave hpc (by simpa using hd)
    · cases h
  | cancel c => cases h; exact .cancel c
  | invalidate => cases h; exact .invalidate
  | tick d => cases h; exact .tick d

theorem cacheStep_cases {blame : E → Option C} {s s' : CacheState T E C}
    {a : CacheAction T E C} (h : cacheStep blame s a = some s') :
    ∃ t, Acts blame s a t ∧ s' = { t with steps := s.steps + 1 } := by
  obtain ⟨t, ht, rfl⟩ := Option.map_eq_some_iff.mp h
  exact ⟨t, acts_of_cacheAct ht, rfl⟩

theorem goto_pc_self (s : CacheState T E C) (c : C) (pc : Pc T E C) : (s.goto c pc).pc c = pc := by
  simp [CacheState.goto]

theorem goto_pc_of_ne (s : CacheState T E C) {c d : C} (pc : Pc T E C) (h : d ≠ c) :
    (s.goto c pc).pc d = s.pc d := by
  simp [CacheState.goto, h]

theorem publish_pc_self (s : CacheState T E C) (c : C) (ch st : Nat) (out : Outcome T E) :
    (s.publish c ch st out).pc c = .unlocked ⟨ch, c, st, out, !s.done c, s.clock⟩ :=
  goto_pc_self s c _

theorem publish_pc_of_ne (s : CacheState T E C) {c d : C} (ch st : Nat) (out : Outcome T E)
    (h : d ≠ c) : (s.publish c ch st out).pc d = s.pc d :=
  goto_pc_of_ne s _ h

/-- A result whose context has ended is dropped. -/
theorem publish_cache_done {s : CacheState T E C} {c : C} (ch st : Nat) (out : Outcome T E)
    (hd : s.done c = true) :
    (s.publish c ch st out).cache = { s.cache with refreshing := none } := by
  simp [CacheState.publish, hd]

theorem publish_cache_live {s : CacheState T E C} {c : C} (ch st : Nat) (out : Outcome T E)
    (hd : s.done c = false) : (s.publish c ch st out).cache = { s.cache with
      lastAttempt := some s.clock, value := out.value, err := out.err
      loadedBy := some ⟨ch, c, st, out, true, s.clock⟩, refreshing := none } := by
  simp [CacheState.publish, hd]

theorem publish_ttl (s : CacheState T E C) (c : C) (ch st : Nat) (out : Outcome T E) :
    (s.publish c ch st out).cache.ttl = s.cache.ttl := by
  cases hd : s.done c with
  | true => rw [publish_cache_done ch st out hd]
  | false => rw [publish_cache_live ch st out hd]

end Inversion

end OpenHpcWeb.Slurm
