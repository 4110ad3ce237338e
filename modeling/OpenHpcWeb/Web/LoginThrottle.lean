/-
  The rate limit of logins over time: any calls of `loginAttemptStore.reserve` and `reset`,
  internal/web/app.go.

  `reserve` is that of Web.Login. Its map has no order of its own: a call names the order in
  which `range` walks it. The events are history: each call with its outcome, and a granted
  one with the start of the window that it is counted in.

  * `reserve_some`: what a granted call leaves in the map.
  * `Throttle.Ok.step`: the invariant of the map.
  * `Tracked.step`: the map counts the grants of a key since its last reset, as long as nothing
    is evicted.
  * `login_throttling`: the limits, after any calls.
-/
import Mathlib.Algebra.Order.Ring.Int
import Mathlib.Data.List.Dedup
import Mathlib.Data.List.Perm.Subperm
import OpenHpcWeb.Lib.FixedWindow
import OpenHpcWeb.Lib.Run
import OpenHpcWeb.Web.Login

namespace OpenHpcWeb.Web

open OpenHpcWeb.Go OpenHpcWeb.Lib OpenHpcWeb.Platform

deriving instance DecidableEq for LoginAttempt

/-! ## One call -/

namespace LoginAttempts

/-- What `reserve` starts from. -/
def current (attempts : LoginAttempts) (key : String) (now : Time) : LoginAttempt :=
  match attempts.find? fun a => a.1 = key with
  | none => ⟨0, now⟩
  | some a => if loginWindow ≤ now - a.2.windowStart then ⟨0, now⟩ else a.2

/-- The entries of the other keys that have not expired. -/
def others (attempts : LoginAttempts) (key : String) (now : Time) : LoginAttempts :=
  LoginAttempts.remove (List.filter (fun a => now - a.2.windowStart < loginWindow) attempts) key

def reserved (attempts : LoginAttempts) (key : String) (now : Time) : String × LoginAttempt :=
  (key, ⟨(attempts.current key now).count + 1, (attempts.current key now).windowStart⟩)

theorem mem_remove {attempts : LoginAttempts} {key : String} {a : String × LoginAttempt} :
    a ∈ attempts.remove key ↔ a ∈ attempts ∧ a.1 ≠ key := by
  unfold LoginAttempts.remove
  rw [List.mem_filter, decide_eq_true_eq]

theorem mem_others {attempts : LoginAttempts} {key : String} {now : Time}
    {a : String × LoginAttempt} :
    a ∈ attempts.others key now ↔
      a ∈ attempts ∧ now - a.2.windowStart < loginWindow ∧ a.1 ≠ key := by
  unfold others
  rw [mem_remove, List.mem_filter, decide_eq_true_eq, and_assoc]

theorem others_sublist (attempts : LoginAttempts) (key : String) (now : Time) :
    (attempts.others key now).Sublist attempts :=
  (List.filter_sublist).trans List.filter_sublist

theorem remove_sublist (attempts : LoginAttempts) (key : String) :
    (attempts.remove key).Sublist attempts :=
  List.filter_sublist

theorem remove_snoc {attempts : LoginAttempts} {key : String} {a : String × LoginAttempt}
    (h : a.1 ≠ key) :
    LoginAttempts.remove (attempts ++ [a]) key = attempts.remove key ++ [a] := by
  unfold LoginAttempts.remove
  rw [List.filter_append, List.filter_cons_of_pos (by simpa using h), List.filter_nil]

theorem reserve_eq (attempts : LoginAttempts) (key : String) (now : Time) :
    attempts.reserve key now =
      if 5 ≤ (attempts.current key now).count then none
      else
        let updated : LoginAttempts := attempts.others key now ++ [attempts.reserved key now]
        if 4096 < updated.length then
          some (LoginAttempts.remove updated (oldestAttempt key now updated).1)
        else some updated := rfl

/-- The loop over the map finds the oldest entry of another key, if there is one. -/
theorem oldestAttempt_cases (key : String) (now : Time) (attempts : LoginAttempts)
    (hstart : ∀ a ∈ attempts, a.2.windowStart ≤ now) :
    (oldestAttempt key now attempts = (key, now) ∧ ∀ a ∈ attempts, a.1 = key) ∨
    ∃ old ∈ attempts, old.1 ≠ key ∧
      oldestAttempt key now attempts = (old.1, old.2.windowStart) ∧
      ∀ a ∈ attempts, a.1 ≠ key → old.2.windowStart ≤ a.2.windowStart := by
  induction attempts using List.reverseRecOn with
  | nil => exact .inl ⟨rfl, fun _ h => nomatch h⟩
  | append_singleton attempts b ih =>
    have hb := hstart b (by simp)
    have hsnoc : oldestAttempt key now (attempts ++ [b]) =
        if b.1 ≠ key ∧ b.2.windowStart ≤ (oldestAttempt key now attempts).2 then
          (b.1, b.2.windowStart)
        else oldestAttempt key now attempts := by
      unfold oldestAttempt
      rw [List.foldl_append, List.foldl_cons, List.foldl_nil]
    rw [hsnoc]
    rcases ih fun a ha => hstart a (List.mem_append_left _ ha) with
      ⟨hnone, hkeys⟩ | ⟨old, hmem, hne, hold, hoptimal⟩
    · rw [hnone]
      by_cases hkey : b.1 = key
      · left
        rw [if_neg (by simp [hkey])]
        refine ⟨rfl, fun a ha => ?_⟩
        rcases List.mem_append.mp ha with ha | ha
        · exact hkeys a ha
        · rw [List.mem_singleton.mp ha, hkey]
      · right
        rw [if_pos ⟨hkey, hb⟩]
        refine ⟨b, by simp, hkey, rfl, fun a ha hak => ?_⟩
        rcases List.mem_append.mp ha with ha | ha
        · exact absurd (hkeys a ha) hak
        · rw [List.mem_singleton.mp ha]
    · right
      rw [hold]
      by_cases hless : b.1 ≠ key ∧ b.2.windowStart ≤ old.2.windowStart
      · rw [if_pos hless]
        refine ⟨b, by simp, hless.1, rfl, fun a ha hak => ?_⟩
        rcases List.mem_append.mp ha with ha | ha
        · exact hless.2.trans (hoptimal a ha hak)
        · rw [List.mem_singleton.mp ha]
      · rw [if_neg hless]
        refine ⟨old, List.mem_append_left _ hmem, hne, rfl, fun a ha hak => ?_⟩
        rcases List.mem_append.mp ha with ha | ha
        · exact hoptimal a ha hak
        · rw [List.mem_singleton.mp ha] at hak ⊢
          exact le_of_lt (not_le.mp fun hle => hless ⟨hak, hle⟩)

theorem current_start (attempts : LoginAttempts) (key : String) (now : Time) :
    (attempts.current key now).windowStart = now ∨
      ∃ a ∈ attempts, a.1 = key ∧ attempts.current key now = a.2 := by
  unfold current
  split
  · exact .inl rfl
  · next a ha =>
    have hkey := List.find?_some ha
    rw [decide_eq_true_eq] at hkey
    split
    · exact .inl rfl
    · exact .inr ⟨a, List.mem_of_find?_eq_some ha, hkey, rfl⟩

theorem current_windowStart_le {attempts : LoginAttempts} (key : String) {now : Time}
    (hstart : ∀ a ∈ attempts, a.2.windowStart ≤ now) :
    (attempts.current key now).windowStart ≤ now := by
  rcases current_start attempts key now with heq | ⟨a, ha, -, heq⟩
  · exact le_of_eq heq
  · rw [heq]
    exact hstart a ha

theorem updated_windowStart_le {attempts : LoginAttempts} (key : String) {now : Time}
    (hstart : ∀ a ∈ attempts, a.2.windowStart ≤ now) :
    ∀ a ∈ attempts.others key now ++ [attempts.reserved key now], a.2.windowStart ≤ now := by
  intro a ha
  rcases List.mem_append.mp ha with ha | ha
  · exact hstart a (mem_others.mp ha).1
  · rw [List.mem_singleton.mp ha]
    exact current_windowStart_le key hstart

/-- What a granted call leaves in the map: its own entry, and the other entries that have not
    expired, but for the oldest one when there are too many. -/
theorem reserve_some {attempts attempts' : LoginAttempts} {key : String} {now : Time}
    (hstart : ∀ a ∈ attempts, a.2.windowStart ≤ now)
    (h : attempts.reserve key now = some attempts') :
    (attempts.current key now).count < 5 ∧
      ((attempts' = attempts.others key now ++ [attempts.reserved key now] ∧
          (attempts.others key now).length < 4096) ∨
        ∃ old ∈ attempts.others key now,
          (∀ a ∈ attempts.others key now, old.2.windowStart ≤ a.2.windowStart) ∧
          attempts' = (attempts.others key now).remove old.1 ++ [attempts.reserved key now] ∧
          4096 ≤ (attempts.others key now).length) := by
  rw [reserve_eq] at h
  split at h
  · cases h
  · next hcount =>
    refine ⟨Nat.not_le.mp hcount, ?_⟩
    dsimp only at h
    rw [List.length_append, List.length_singleton] at h
    split at h
    · next hfull =>
      right
      rcases oldestAttempt_cases key now _ (updated_windowStart_le key hstart) with
        ⟨-, hkeys⟩ | ⟨old, hmem, hne, hold, hoptimal⟩
      · -- the map is full, so it has another key
        cases hothers : attempts.others key now with
        | nil =>
          rw [hothers, List.length_nil] at hfull
          omega
        | cons a rest =>
          have ha : a ∈ attempts.others key now := by
            rw [hothers]
            exact List.mem_cons_self
          exact absurd (hkeys a (List.mem_append_left _ ha)) (mem_others.mp ha).2.2
      · have hother : old ∈ attempts.others key now := by
          rcases List.mem_append.mp hmem with hmem | hmem
          · exact hmem
          · rw [List.mem_singleton.mp hmem] at hne
            exact absurd rfl hne
        refine ⟨old, hother,
          fun a ha => hoptimal a (List.mem_append_left _ ha) (mem_others.mp ha).2.2, ?_, by omega⟩
        rw [← Option.some.inj h, hold]
        exact remove_snoc (Ne.symm hne)
    · next hroom =>
      exact .inl ⟨(Option.some.inj h).symm, by omega⟩

/-- The entry of a key is what its next call starts from, if it has not expired. -/
theorem current_of_mem {attempts : LoginAttempts} {key : String} {now : Time}
    {a : String × LoginAttempt} (hnodup : (attempts.map Prod.fst).Nodup) (ha : a ∈ attempts)
    (hkey : a.1 = key) :
    attempts.current key now =
      if loginWindow ≤ now - a.2.windowStart then ⟨0, now⟩ else a.2 := by
  have hfind : (attempts.find? fun b => b.1 = key) = some a := by
    cases hfind : attempts.find? fun b => b.1 = key with
    | none =>
      have hno := List.find?_eq_none.mp hfind a ha
      exact absurd (decide_eq_true hkey) hno
    | some b =>
      have hbkey := List.find?_some hfind
      rw [decide_eq_true_eq] at hbkey
      rw [List.inj_on_of_nodup_map hnodup (List.mem_of_find?_eq_some hfind) ha
        (hbkey.trans hkey.symm)]
  unfold current
  rw [hfind]

theorem current_of_not_mem {attempts : LoginAttempts} {key : String} {now : Time}
    (h : ∀ a ∈ attempts, a.1 ≠ key) : attempts.current key now = ⟨0, now⟩ := by
  have hfind : (attempts.find? fun b => b.1 = key) = none :=
    List.find?_eq_none.mpr fun a ha => by simpa using h a ha
  unfold current
  rw [hfind]

end LoginAttempts

/-! ## Any calls -/

inductive LoginCall where
  /-- `order` is the map in the order in which `range` walks it -/
  | reserve (key : String) (now : Time) (order : LoginAttempts)
  | reset (key : String)

inductive ThrottleEvent where
  | granted (key : String) (now windowStart : Time)
  | rejected (key : String) (now : Time)
  | reset (key : String)

def ThrottleEvent.key : ThrottleEvent → String
  | .granted key _ _ => key
  | .rejected key _ => key
  | .reset key => key

def ThrottleEvent.time : ThrottleEvent → Option Time
  | .granted _ now _ => some now
  | .rejected _ now => some now
  | .reset _ => none

/-- The store, and what has happened. -/
structure Throttle where
  attempts : LoginAttempts
  events : List ThrottleEvent

namespace Throttle

def empty : Throttle := ⟨[], []⟩

def times (s : Throttle) : List Time := s.events.filterMap ThrottleEvent.time

def keys (s : Throttle) : List String := s.events.map ThrottleEvent.key

def step (s : Throttle) : LoginCall → Option Throttle
  | .reserve key now order =>
    if order.Perm s.attempts then
      match order.reserve key now with
      | none => some ⟨s.attempts, s.events ++ [.rejected key now]⟩
      | some attempts =>
        some ⟨attempts, s.events ++ [.granted key now (order.current key now).windowStart]⟩
    else none
  | .reset key => some ⟨s.attempts.remove key, s.events ++ [.reset key]⟩

/-- No call is made before those that have been made. -/
def InTime (s : Throttle) : LoginCall → Prop
  | .reserve _ now _ => ∀ t ∈ s.times, t ≤ now
  | .reset _ => True

/-- The grants of a key since its last reset: their times and the starts of their windows. -/
def grants (key : String) (events : List ThrottleEvent) : List (Time × Time) :=
  events.foldl (fun found event =>
    match event with
    | .granted name now start => if name = key then found ++ [(now, start)] else found
    | .rejected _ _ => found
    | .reset name => if name = key then [] else found) []

/-- What one call does. -/
theorem step_cases {s s' : Throttle} {call : LoginCall} (h : s.step call = some s') :
    (∃ key now order attempts, call = .reserve key now order ∧ order.Perm s.attempts ∧
      order.reserve key now = some attempts ∧
      s' = ⟨attempts,
        s.events ++ [.granted key now (order.current key now).windowStart]⟩) ∨
    (∃ key now order, call = .reserve key now order ∧ order.reserve key now = none ∧
      s' = ⟨s.attempts, s.events ++ [.rejected key now]⟩) ∨
    ∃ key, call = .reset key ∧ s' = ⟨s.attempts.remove key, s.events ++ [.reset key]⟩ := by
  cases call with
  | reserve key now order =>
    unfold step at h
    dsimp only at h
    split at h
    · next hperm =>
      split at h
      · next hnone => exact .inr (.inl ⟨key, now, order, rfl, hnone, (Option.some.inj h).symm⟩)
      · next attempts hsome =>
        exact .inl ⟨key, now, order, attempts, rfl, hperm, hsome, (Option.some.inj h).symm⟩
    · cases h
  | reset key => exact .inr (.inr ⟨key, rfl, (Option.some.inj h).symm⟩)

/-! ## The map -/

/-- The invariant of the map. -/
structure Ok (s : Throttle) : Prop where
  nodup : (s.attempts.map Prod.fst).Nodup
  length : s.attempts.length ≤ 4096
  counts : ∀ a ∈ s.attempts, 1 ≤ a.2.count ∧ a.2.count ≤ 5
  started : ∀ a ∈ s.attempts, a.2.windowStart ∈ s.times
  known : ∀ a ∈ s.attempts, a.1 ∈ s.keys

theorem times_snoc (attempts : LoginAttempts) (events : List ThrottleEvent)
    (event : ThrottleEvent) :
    Throttle.times ⟨attempts, events ++ [event]⟩ =
      events.filterMap ThrottleEvent.time ++ event.time.toList := by
  unfold times
  rw [List.filterMap_append]
  cases hevent : event.time with
  | none => rw [List.filterMap_cons_none hevent, List.filterMap_nil, Option.toList_none]
  | some t => rw [List.filterMap_cons_some hevent, List.filterMap_nil, Option.toList_some]

theorem keys_snoc (attempts : LoginAttempts) (events : List ThrottleEvent)
    (event : ThrottleEvent) :
    Throttle.keys ⟨attempts, events ++ [event]⟩ = events.map ThrottleEvent.key ++ [event.key] := by
  unfold keys
  rw [List.map_append, List.map_singleton]

/-- A map whose entries come from one with the invariant has it, too. -/
theorem Ok.of_sublist {s : Throttle} (h : s.Ok) {attempts : LoginAttempts}
    (hsub : attempts.Sublist s.attempts) (event : ThrottleEvent) :
    Ok ⟨attempts, s.events ++ [event]⟩ where
  nodup := h.nodup.sublist (hsub.map Prod.fst)
  length := hsub.length_le.trans h.length
  counts a ha := h.counts a (hsub.subset ha)
  started a ha := by
    rw [times_snoc]
    exact List.mem_append_left _ (h.started a (hsub.subset ha))
  known a ha := by
    rw [keys_snoc]
    exact List.mem_append_left _ (h.known a (hsub.subset ha))

theorem Ok.started_le {s : Throttle} (h : s.Ok) {order : LoginAttempts}
    (hperm : order.Perm s.attempts) {now : Time} (hnow : ∀ t ∈ s.times, t ≤ now) :
    ∀ a ∈ order, a.2.windowStart ≤ now :=
  fun a ha => hnow _ (h.started a (hperm.mem_iff.mp ha))

/-- What a granted call keeps of the other entries leaves room for its own. -/
theorem Ok.reserve_kept {s : Throttle} (h : s.Ok) {order attempts : LoginAttempts} {key : String}
    {now : Time} (hperm : order.Perm s.attempts) (hnow : ∀ t ∈ s.times, t ≤ now)
    (hsome : order.reserve key now = some attempts) :
    ∃ kept, attempts = kept ++ [order.reserved key now] ∧
      kept.Sublist (order.others key now) ∧ kept.length < 4096 := by
  have hlength : order.length ≤ 4096 := hperm.length_eq ▸ h.length
  obtain ⟨-, ⟨rfl, hroom⟩ | ⟨old, hold, -, rfl, -⟩⟩ :=
    LoginAttempts.reserve_some (h.started_le hperm hnow) hsome
  · exact ⟨_, rfl, List.Sublist.refl _, hroom⟩
  · refine ⟨_, rfl, LoginAttempts.remove_sublist _ _, ?_⟩
    have hless : ((order.others key now).remove old.1).length <
        List.length (order.others key now) :=
      List.length_filter_lt_length_iff_exists.mpr ⟨old, hold, by simp⟩
    have hsub := (LoginAttempts.others_sublist order key now).length_le
    omega

theorem Ok.granted {s : Throttle} (h : s.Ok) {order attempts : LoginAttempts} {key : String}
    {now : Time} (hperm : order.Perm s.attempts) (hnow : ∀ t ∈ s.times, t ≤ now)
    (hsome : order.reserve key now = some attempts) :
    Ok ⟨attempts, s.events ++ [.granted key now (order.current key now).windowStart]⟩ := by
  obtain ⟨kept, rfl, hsub, hlength⟩ := h.reserve_kept hperm hnow hsome
  have hcount := (LoginAttempts.reserve_some (h.started_le hperm hnow) hsome).1
  have hold : ∀ a ∈ kept, a ∈ s.attempts ∧ a.1 ≠ key := fun a ha =>
    have hother := LoginAttempts.mem_others.mp (hsub.subset ha)
    ⟨hperm.mem_iff.mp hother.1, hother.2.2⟩
  have hnodup : (kept.map Prod.fst).Nodup :=
    ((hperm.map Prod.fst).nodup_iff.mpr h.nodup).sublist
      ((hsub.trans (LoginAttempts.others_sublist order key now)).map Prod.fst)
  constructor
  · rw [List.map_append, List.map_singleton, List.nodup_append]
    refine ⟨hnodup, List.nodup_singleton _, fun name hname name' hname' => ?_⟩
    obtain ⟨a, ha, rfl⟩ := List.mem_map.mp hname
    rw [List.mem_singleton.mp hname']
    exact (hold a ha).2
  · rw [List.length_append, List.length_singleton]
    omega
  · intro a ha
    rcases List.mem_append.mp ha with ha | ha
    · exact h.counts a (hold a ha).1
    · rw [List.mem_singleton.mp ha]
      show 1 ≤ (order.current key now).count + 1 ∧ (order.current key now).count + 1 ≤ 5
      omega
  · intro a ha
    rw [times_snoc, List.mem_append]
    rcases List.mem_append.mp ha with ha | ha
    · exact .inl (h.started a (hold a ha).1)
    · rw [List.mem_singleton.mp ha]
      show (order.current key now).windowStart ∈ _ ∨ (order.current key now).windowStart ∈ _
      rcases LoginAttempts.current_start order key now with heq | ⟨b, hb, -, heq⟩
      · rw [heq]
        exact .inr (List.mem_singleton_self now)
      · rw [heq]
        exact .inl (h.started b (hperm.mem_iff.mp hb))
  · intro a ha
    rw [keys_snoc, List.mem_append]
    rcases List.mem_append.mp ha with ha | ha
    · exact .inl (h.known a (hold a ha).1)
    · rw [List.mem_singleton.mp ha]
      exact .inr (List.mem_singleton_self key)

theorem Ok.step {s s' : Throttle} {call : LoginCall} (h : s.Ok) (hcall : s.InTime call)
    (hstep : s.step call = some s') : s'.Ok := by
  rcases step_cases hstep with
    ⟨key, now, order, attempts, rfl, hperm, hsome, rfl⟩ | ⟨key, now, order, rfl, -, rfl⟩ |
    ⟨key, rfl, rfl⟩
  · exact h.granted hperm hcall hsome
  · exact h.of_sublist (List.Sublist.refl _) _
  · exact h.of_sublist (LoginAttempts.remove_sublist _ _) _

/-- What a granted call does to the other entries that have not expired: it keeps them all, or
    all but the oldest. -/
structure Granted (s s' : Throttle) (key : String) (now : Time) : Prop where
  own : ∃ a ∈ s'.attempts, a.1 = key
  others : (∀ a ∈ s.attempts, a.1 ≠ key → now - a.2.windowStart < loginWindow →
      a ∈ s'.attempts) ∨
    ∃ gone ∈ s.attempts, gone.1 ≠ key ∧ now - gone.2.windowStart < loginWindow ∧
      ∀ a ∈ s.attempts, a.1 ≠ key → now - a.2.windowStart < loginWindow →
        gone.2.windowStart ≤ a.2.windowStart ∧ (a ≠ gone → a ∈ s'.attempts)

theorem Ok.granted_others {s s' : Throttle} (h : s.Ok) {order attempts : LoginAttempts}
    {key : String} {now : Time} (hperm : order.Perm s.attempts)
    (hnow : ∀ t ∈ s.times, t ≤ now) (hsome : order.reserve key now = some attempts)
    (hs' : s'.attempts = attempts) : s.Granted s' key now := by
  have hother : ∀ a ∈ s.attempts, a.1 ≠ key → now - a.2.windowStart < loginWindow →
      a ∈ order.others key now := fun a ha hne hopen =>
    LoginAttempts.mem_others.mpr ⟨hperm.mem_iff.mpr ha, hopen, hne⟩
  obtain ⟨-, ⟨rfl, -⟩ | ⟨old, hold, hoptimal, rfl, -⟩⟩ :=
    LoginAttempts.reserve_some (h.started_le hperm hnow) hsome
  · constructor
    · exact ⟨order.reserved key now, by rw [hs']; simp, rfl⟩
    · left
      intro a ha hne hopen
      rw [hs']
      exact List.mem_append_left _ (hother a ha hne hopen)
  · obtain ⟨hmem, hopen, hne⟩ := LoginAttempts.mem_others.mp hold
    constructor
    · exact ⟨order.reserved key now, by rw [hs']; simp, rfl⟩
    · right
      refine ⟨old, hperm.mem_iff.mp hmem, hne, hopen, fun a ha hak haopen => ?_⟩
      refine ⟨hoptimal a (hother a ha hak haopen), fun hdiff => ?_⟩
      rw [hs']
      refine List.mem_append_left _ (LoginAttempts.mem_remove.mpr
        ⟨hother a ha hak haopen, fun hkey => hdiff ?_⟩)
      exact List.inj_on_of_nodup_map h.nodup ha (hperm.mem_iff.mp hmem) hkey

/-! ## The grants of a key -/

/-- No entry of the map has been evicted if it holds as few keys as have occurred. -/
def FewKeys (s : Throttle) : Prop := s.keys.dedup.length ≤ 4096

/-- The map counts the grants of the last window of a key, unless that window is over. -/
structure Tracked (s : Throttle) (key : String) : Prop where
  windowed : Windowed loginWindow 5 (grants key s.events)
  entry : ∀ a ∈ s.attempts, a.1 = key →
    (∃ last ∈ grants key s.events, last.2 = a.2.windowStart) ∧
    (inWindow a.2.windowStart (grants key s.events)).length = a.2.count ∧
    ∀ g ∈ grants key s.events, g.2 ≠ a.2.windowStart → g.2 + loginWindow ≤ a.2.windowStart
  elapsed : (∀ a ∈ s.attempts, a.1 ≠ key) → ∀ g ∈ grants key s.events,
    ∃ t ∈ s.times, g.2 + loginWindow ≤ t

theorem grants_snoc (key : String) (events : List ThrottleEvent) (event : ThrottleEvent) :
    grants key (events ++ [event]) =
      match event with
      | .granted name now start =>
        if name = key then grants key events ++ [(now, start)] else grants key events
      | .rejected _ _ => grants key events
      | .reset name => if name = key then [] else grants key events := by
  unfold grants
  rw [List.foldl_append, List.foldl_cons, List.foldl_nil]

/-- The windows of a key whose entry a call at `now` finds expired, or not at all, are over. -/
theorem Tracked.over_of {s : Throttle} (h : s.Ok) {key : String} (htracked : Tracked s key)
    {now : Time} (hnow : ∀ t ∈ s.times, t ≤ now)
    (hgone : ∀ a ∈ s.attempts, a.1 = key → a.2.windowStart + loginWindow ≤ now) :
    ∀ g ∈ grants key s.events, g.2 + loginWindow ≤ now := by
  intro g hg
  by_cases hentry : ∃ a ∈ s.attempts, a.1 = key
  · obtain ⟨a, ha, hkey⟩ := hentry
    obtain ⟨-, -, hbefore⟩ := htracked.entry a ha hkey
    by_cases hsame : g.2 = a.2.windowStart
    · rw [hsame]
      exact hgone a ha hkey
    · exact (hbefore g hg hsame).trans (hnow _ (h.started a ha))
  · push Not at hentry
    obtain ⟨t, ht, hle⟩ := htracked.elapsed hentry g hg
    exact hle.trans (hnow t ht)

/-- While few keys have occurred, a granted call evicts nothing. -/
theorem Ok.no_eviction {s : Throttle} (h : s.Ok) {order attempts : LoginAttempts} {key : String}
    {now start : Time} (hperm : order.Perm s.attempts) (hnow : ∀ t ∈ s.times, t ≤ now)
    (hsome : order.reserve key now = some attempts)
    (hfew : FewKeys ⟨attempts, s.events ++ [.granted key now start]⟩) :
    attempts = order.others key now ++ [order.reserved key now] := by
  obtain ⟨-, ⟨rfl, -⟩ | ⟨old, -, -, -, hfull⟩⟩ :=
    LoginAttempts.reserve_some (h.started_le hperm hnow) hsome
  · rfl
  · -- the kept entries and the call have more than 4096 keys
    have hsub := LoginAttempts.others_sublist order key now
    have hnodup : (key :: (order.others key now).map Prod.fst).Nodup := by
      rw [List.nodup_cons]
      refine ⟨fun hmem => ?_,
        ((hperm.map Prod.fst).nodup_iff.mpr h.nodup).sublist (hsub.map Prod.fst)⟩
      obtain ⟨a, ha, hkey⟩ := List.mem_map.mp hmem
      exact (LoginAttempts.mem_others.mp ha).2.2 hkey
    have hkeys : ∀ name ∈ key :: (order.others key now).map Prod.fst,
        name ∈ (Throttle.keys ⟨attempts, s.events ++ [.granted key now start]⟩).dedup := by
      intro name hname
      rw [List.mem_dedup, keys_snoc, List.mem_append]
      rcases List.mem_cons.mp hname with rfl | hname
      · exact .inr (List.mem_singleton_self name)
      · obtain ⟨a, ha, rfl⟩ := List.mem_map.mp hname
        exact .inl (h.known a (hperm.mem_iff.mp (hsub.subset ha)))
    have hle := (hnodup.subperm hkeys).length_le
    rw [List.length_cons, List.length_map] at hle
    unfold FewKeys at hfew
    omega

/-- A call of another key, or one that changes no entry of the key. -/
theorem Tracked.other {s : Throttle} {key : String} (h : Tracked s key)
    {attempts : LoginAttempts} {event : ThrottleEvent}
    (hgrants : grants key (s.events ++ [event]) = grants key s.events)
    (hentry : ∀ a ∈ attempts, a.1 = key → a ∈ s.attempts)
    (hover : (∀ a ∈ attempts, a.1 ≠ key) → (∀ a ∈ s.attempts, a.1 ≠ key) ∨
      ∀ g ∈ grants key s.events, ∃ t ∈ event.time, g.2 + loginWindow ≤ t) :
    Tracked ⟨attempts, s.events ++ [event]⟩ key where
  windowed := by
    dsimp only
    rw [hgrants]
    exact h.windowed
  entry a ha hkey := by
    dsimp only
    rw [hgrants]
    exact h.entry a (hentry a ha hkey) hkey
  elapsed hnone g hg := by
    dsimp only at hnone hg
    rw [hgrants] at hg
    rw [times_snoc]
    rcases hover hnone with hbefore | hexpired
    · obtain ⟨t, ht, hle⟩ := h.elapsed hbefore g hg
      exact ⟨t, List.mem_append_left _ ht, hle⟩
    · obtain ⟨t, ht, hle⟩ := hexpired g hg
      exact ⟨t, List.mem_append_right _ (by simpa using ht), hle⟩

/-- A granted call of the key in the window that its entry counts. -/
theorem Tracked.granted_open {s : Throttle} (hs : s.Ok) {key : String} (h : Tracked s key)
    {now : Time} (hnow : ∀ t ∈ s.times, t ≤ now) {a : String × LoginAttempt}
    (ha : a ∈ s.attempts) (hkey : a.1 = key) (hopen : now < a.2.windowStart + loginWindow)
    (hcount : a.2.count < 5) :
    Windowed loginWindow 5 (grants key s.events ++ [(now, a.2.windowStart)]) ∧
      (inWindow a.2.windowStart (grants key s.events ++ [(now, a.2.windowStart)])).length =
        a.2.count + 1 ∧
      ∀ g ∈ grants key s.events ++ [(now, a.2.windowStart)],
        g.2 ≠ a.2.windowStart → g.2 + loginWindow ≤ a.2.windowStart := by
  obtain ⟨⟨last, hlast, hstart⟩, hlength, hbefore⟩ := h.entry a ha hkey
  refine ⟨?_, ?_, fun g hg hne => ?_⟩
  · exact h.windowed.snoc_open hlast hstart.symm ⟨hnow _ (hs.started a ha), hopen⟩
      (hlength ▸ hcount)
  · rw [inWindow_snoc, if_pos rfl, hlength]
  · rcases List.mem_append.mp hg with hg | hg
    · exact hbefore g hg hne
    · rw [List.mem_singleton.mp hg] at hne
      exact absurd rfl hne

/-- A granted call of the key that opens a window. -/
theorem Tracked.granted_new {s : Throttle} {key : String} (h : Tracked s key) {now : Time}
    (hover : ∀ g ∈ grants key s.events, g.2 + loginWindow ≤ now) :
    Windowed loginWindow 5 (grants key s.events ++ [(now, now)]) ∧
      (inWindow now (grants key s.events ++ [(now, now)])).length = 1 ∧
      ∀ g ∈ grants key s.events ++ [(now, now)], g.2 ≠ now → g.2 + loginWindow ≤ now := by
  have hwindow : now < now + loginWindow := Int.lt_add_of_pos_right now (by decide)
  refine ⟨h.windowed.snoc_new hwindow (by decide) hover, ?_, fun g hg hne => ?_⟩
  · rw [inWindow_snoc, if_pos rfl, inWindow_of_over hwindow hover, List.length_nil]
  · rcases List.mem_append.mp hg with hg | hg
    · exact hover g hg
    · rw [List.mem_singleton.mp hg] at hne
      exact absurd rfl hne

/-- A granted call keeps track of its own key. -/
theorem Tracked.granted_own {s : Throttle} (hs : s.Ok) {order : LoginAttempts} {key : String}
    {now : Time} (h : Tracked s key) (hperm : order.Perm s.attempts)
    (hnow : ∀ t ∈ s.times, t ≤ now) (hcount : (order.current key now).count < 5) :
    Tracked ⟨order.others key now ++ [order.reserved key now],
      s.events ++ [.granted key now (order.current key now).windowStart]⟩ key := by
  have hgrants : grants key
      (s.events ++ [.granted key now (order.current key now).windowStart]) =
      grants key s.events ++ [(now, (order.current key now).windowStart)] := by
    rw [grants_snoc]
    exact if_pos rfl
  have hnodup := (hperm.map Prod.fst).nodup_iff.mpr hs.nodup
  -- the two cases are those of `current`
  have hwindows : Windowed loginWindow 5
        (grants key s.events ++ [(now, (order.current key now).windowStart)]) ∧
      (inWindow (order.current key now).windowStart
        (grants key s.events ++ [(now, (order.current key now).windowStart)])).length =
          (order.current key now).count + 1 ∧
      ∀ g ∈ grants key s.events ++ [(now, (order.current key now).windowStart)],
        g.2 ≠ (order.current key now).windowStart →
          g.2 + loginWindow ≤ (order.current key now).windowStart := by
    by_cases hopen : ∃ a ∈ s.attempts, a.1 = key ∧ now < a.2.windowStart + loginWindow
    · obtain ⟨a, ha, hkey, hopen⟩ := hopen
      have hcurrent : order.current key now = a.2 := by
        rw [LoginAttempts.current_of_mem hnodup (hperm.mem_iff.mpr ha) hkey,
          if_neg (not_le.mpr (sub_lt_iff_lt_add'.mpr hopen))]
      rw [hcurrent] at hcount ⊢
      exact h.granted_open hs hnow ha hkey hopen hcount
    · push Not at hopen
      have hcurrent : order.current key now = ⟨0, now⟩ := by
        by_cases hentry : ∃ a ∈ order, a.1 = key
        · obtain ⟨a, ha, hkey⟩ := hentry
          have hexpired := hopen a (hperm.mem_iff.mp ha) hkey
          rw [LoginAttempts.current_of_mem hnodup ha hkey,
            if_pos (le_sub_iff_add_le'.mpr hexpired)]
        · push Not at hentry
          exact LoginAttempts.current_of_not_mem hentry
      rw [hcurrent]
      exact h.granted_new (h.over_of hs hnow hopen)
  constructor
  · dsimp only
    rw [hgrants]
    exact hwindows.1
  · intro a ha hkey
    dsimp only at ha ⊢
    rw [hgrants]
    rcases List.mem_append.mp ha with ha | ha
    · exact absurd hkey (LoginAttempts.mem_others.mp ha).2.2
    · rw [List.mem_singleton.mp ha]
      exact ⟨⟨_, List.mem_append_right _ (List.mem_singleton_self _), rfl⟩, hwindows.2⟩
  · intro hnone
    have hin : order.reserved key now ∈ order.others key now ++ [order.reserved key now] :=
      List.mem_append_right _ (List.mem_singleton_self _)
    exact absurd rfl (hnone _ hin)

/-- And of the others. -/
theorem Tracked.granted_other {s : Throttle} (hs : s.Ok) {order : LoginAttempts}
    {key name : String} {now : Time} (h : Tracked s key) (hperm : order.Perm s.attempts)
    (hnow : ∀ t ∈ s.times, t ≤ now) (hname : name ≠ key) :
    Tracked ⟨order.others name now ++ [order.reserved name now],
      s.events ++ [.granted name now (order.current name now).windowStart]⟩ key := by
  refine h.other ?_ (fun a ha hkey => ?_) fun hnone => ?_
  · rw [grants_snoc]
    exact if_neg hname
  · rcases List.mem_append.mp ha with ha | ha
    · exact hperm.mem_iff.mp (LoginAttempts.mem_others.mp ha).1
    · rw [List.mem_singleton.mp ha] at hkey
      exact absurd hkey hname
  · -- the entry of `key`, if there was one, has expired
    right
    intro g hg
    refine ⟨now, rfl, h.over_of hs hnow (fun a ha hkey => ?_) g hg⟩
    by_contra hopen
    have hkept : a ∈ order.others name now := by
      refine LoginAttempts.mem_others.mpr ⟨hperm.mem_iff.mpr ha, ?_, ?_⟩
      · exact sub_lt_iff_lt_add'.mpr (not_le.mp hopen)
      · rw [hkey]
        exact hname.symm
    exact hnone a (List.mem_append_left _ hkept) hkey

theorem Tracked.step {s s' : Throttle} {call : LoginCall} (hs : s.Ok) {key : String}
    (h : Tracked s key) (hcall : s.InTime call) (hstep : s.step call = some s')
    (hfew : FewKeys s') : Tracked s' key := by
  rcases step_cases hstep with
    ⟨name, now, order, attempts, rfl, hperm, hsome, rfl⟩ | ⟨name, now, order, rfl, -, rfl⟩ |
    ⟨name, rfl, rfl⟩
  · have hcount := (LoginAttempts.reserve_some (hs.started_le hperm hcall) hsome).1
    rw [hs.no_eviction hperm hcall hsome hfew]
    by_cases hname : name = key
    · subst hname
      exact h.granted_own hs hperm hcall hcount
    · exact h.granted_other hs hperm hcall hname
  · refine h.other ?_ (fun a ha _ => ha) fun hnone => .inl hnone
    rw [grants_snoc]
  · by_cases hname : name = key
    · have hgrants : grants key (s.events ++ [.reset name]) = [] := by
        rw [grants_snoc]
        exact if_pos hname
      constructor
      · dsimp only
        rw [hgrants]
        exact Windowed.nil
      · intro a ha hkey
        exact absurd (hkey.trans hname.symm) (LoginAttempts.mem_remove.mp ha).2
      · intro _ g hg
        dsimp only at hg
        rw [hgrants] at hg
        cases hg
    · refine h.other ?_ (fun a ha _ => (LoginAttempts.mem_remove.mp ha).1) fun hnone => ?_
      · rw [grants_snoc]
        exact if_neg hname
      · left
        intro a ha hkey
        refine hnone a (LoginAttempts.mem_remove.mpr ⟨ha, ?_⟩) hkey
        rw [hkey]
        exact Ne.symm hname

/-! ## Runs -/

theorem Ok.empty : Throttle.empty.Ok where
  nodup := List.nodup_nil
  length := Nat.zero_le _
  counts _ h := nomatch h
  started _ h := nomatch h
  known _ h := nomatch h

theorem Tracked.empty (key : String) : Tracked Throttle.empty key where
  windowed := Windowed.nil
  entry _ h := nomatch h
  elapsed _ _ h := nomatch h

/-- Keys do not disappear from the history. -/
theorem FewKeys.of_step {s s' : Throttle} {call : LoginCall} (hstep : s.step call = some s')
    (h : FewKeys s') : FewKeys s := by
  have hsub : s.keys ⊆ s'.keys := by
    intro name hname
    rcases step_cases hstep with
      ⟨key, now, order, attempts, -, -, -, rfl⟩ | ⟨key, now, order, -, -, rfl⟩ | ⟨key, -, rfl⟩
    all_goals
      rw [keys_snoc]
      exact List.mem_append_left _ hname
  have hdedup : s.keys.dedup ⊆ s'.keys.dedup := fun name hname =>
    List.mem_dedup.mpr (hsub (List.mem_dedup.mp hname))
  exact ((List.nodup_dedup _).subperm hdedup).length_le.trans h

theorem run_tracked {calls : List LoginCall} {s : Throttle}
    (h : Run Throttle.step InTime Throttle.empty calls s) :
    s.Ok ∧ (FewKeys s → ∀ key, Tracked s key) := by
  refine h.invariant (fun s => s.Ok ∧ (FewKeys s → ∀ key, Tracked s key))
    ⟨Ok.empty, fun _ => Tracked.empty⟩ fun s call s' ⟨hok, htracked⟩ hcall hstep => ?_
  refine ⟨hok.step hcall hstep, fun hfew key => ?_⟩
  exact (htracked (hfew.of_step hstep) key).step hok hcall hstep hfew

/-- After any calls in the order of time the map is within its bounds, a rejected call changes
    nothing and a granted one evicts the oldest other entry at most. If no more keys occur than
    the map holds, a key is granted five calls in a window and ten in any fifteen minutes since
    its last reset. -/
theorem login_throttling {calls : List LoginCall} {s : Throttle}
    (h : Run Throttle.step InTime Throttle.empty calls s) :
    s.attempts.length ≤ 4096 ∧
      (∀ a ∈ s.attempts, 1 ≤ a.2.count ∧ a.2.count ≤ 5) ∧
      (∀ key now order s', s.InTime (.reserve key now order) →
        s.step (.reserve key now order) = some s' →
        (order.reserve key now = none → s'.attempts = s.attempts) ∧
        (order.reserve key now ≠ none → s.Granted s' key now)) ∧
      (FewKeys s → ∀ key, Windowed loginWindow 5 (grants key s.events) ∧
        ∀ t, (inInterval loginWindow t (grants key s.events)).length ≤ 10) := by
  obtain ⟨hok, htracked⟩ := run_tracked h
  refine ⟨hok.length, hok.counts, fun key now order s' hcall hstep => ?_, fun hfew key => ?_⟩
  · rcases step_cases hstep with
      ⟨key', now', order', attempts, heq, hperm, hsome, rfl⟩ |
      ⟨key', now', order', heq, hnone, rfl⟩ | ⟨key', heq, -⟩
    · cases heq
      refine ⟨fun hnone => ?_, fun _ => hok.granted_others hperm hcall hsome rfl⟩
      rw [hnone] at hsome
      cases hsome
    · cases heq
      exact ⟨fun _ => rfl, fun hsome => absurd hnone hsome⟩
    · cases heq
  · have hwindowed := (htracked hfew key).windowed
    exact ⟨hwindowed, hwindowed.interval_le⟩

theorem login_throttling_one :
    Windowed loginWindow 5 (grants "10.0.0.1" [.granted "10.0.0.1" 0 0]) := by
  have hrun : Run Throttle.step InTime Throttle.empty [.reserve "10.0.0.1" 0 []]
      ⟨[("10.0.0.1", ⟨1, 0⟩)], [.granted "10.0.0.1" 0 0]⟩ :=
    Run.one (fun _ h => nomatch h) rfl
  have hfew : FewKeys ⟨[("10.0.0.1", ⟨1, 0⟩)], [.granted "10.0.0.1" 0 0]⟩ := by
    unfold FewKeys
    decide
  exact ((login_throttling hrun).2.2.2 hfew "10.0.0.1").1

end Throttle

end OpenHpcWeb.Web
