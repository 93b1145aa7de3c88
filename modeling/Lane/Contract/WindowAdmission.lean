import Lane.Command.SlidingWindow
import Lane.Library.SlidingWindow

/-! The sliding window limiter admits at most the configured number of commands in every window of the
configured length, and refuses a command only when the window that ends with it is full.
-/

namespace Lane

open SlidingWindow

variable {config : RateLimitConfig} {earliest clock now : Int} {history : WindowHistory}

-----------------------------------------------------------------------------------------
-- The retained timestamps
-----------------------------------------------------------------------------------------

/-- The limiter retains every acquisition that a later window may hold. -/
structure WindowHistory.Retains (config : RateLimitConfig) (history : WindowHistory) : Prop where
  maxCommands : history.limiter.maxCommands = config.maxCommands
  window : history.limiter.window = config.window
  past : ∀ time ∈ history.acquired, time ≤ history.clock
  recent
    : ∀ since, history.clock - config.window ≤ since
      → history.limiter.timestamps.filter (fun ts => since < ts)
        = history.acquired.filter (fun ts => since < ts)
  admitted : Admitted config.maxCommands config.window history.acquired

namespace WindowHistory.Retains

/-- Time passes. -/
theorem elapse (retains : history.Retains config) (later : history.clock ≤ now)
    : { history with clock := now }.Retains config where
  maxCommands := retains.maxCommands
  window := retains.window
  past time member := (retains.past time member).trans later
  recent since from' := retains.recent since (by dsimp only at from'; omega)
  admitted := retains.admitted

/-- What the current window holds. -/
theorem retain_timestamps (retains : history.Retains config) (later : history.clock ≤ now)
    : (history.limiter.retain (now - config.window)).timestamps
      = history.acquired.filter (fun ts => now - config.window < ts) :=
  retains.recent (now - config.window) (by omega)

/-- Expired timestamps are not missed. -/
theorem retain (retains : history.Retains config) (later : history.clock ≤ now)
    : ({ history with
          limiter := history.limiter.retain (now - config.window)
          clock := now }).Retains config where
  maxCommands := retains.maxCommands
  window := retains.window
  past time member := (retains.past time member).trans later
  recent since from' := by
    dsimp only at from' ⊢
    rw [retains.retain_timestamps later, List.filter_filter]
    refine List.filter_congr ?_
    intro time _
    rw [Bool.eq_iff_iff]
    simp only [Bool.and_eq_true, decide_eq_true_eq]
    omega
  admitted := retains.admitted

/-- An acquisition when the window has room. -/
theorem acquire (retains : history.Retains config) (later : history.clock ≤ now)
    (room : (history.limiter.retain (now - config.window)).timestamps.length < config.maxCommands)
    : ({ limiter :=
          { history.limiter.retain (now - config.window) with
            timestamps := (history.limiter.retain (now - config.window)).timestamps ++ [now] }
         clock := now
         acquired := history.acquired ++ [now] } : WindowHistory).Retains config where
  maxCommands := retains.maxCommands
  window := retains.window
  past time member := by
    rcases List.mem_append.mp member with before | own
    · exact (retains.past time before).trans later
    · exact (List.mem_singleton.mp own).le
  recent since from' := by
    have kept := (retains.retain later).recent since from'
    dsimp only at kept ⊢
    rw [List.filter_append, kept, List.filter_append]
  admitted := by
    refine retains.admitted.concat (fun time member => (retains.past time member).trans later) ?_
    rw [List.countP_eq_length_filter, ← retains.retain_timestamps later]
    exact room

/-- A call reads the count of the current window, or panics. -/
theorem step (retains : history.Retains config) {call : WindowCall} {next : WindowHistory}
    (called : (windowSystem earliest).Step history call next)
    : next.Retains config := by
  obtain ⟨now, later, rfl⟩ := called
  unfold WindowHistory.after WindowHistory.served SlidingWindowLimiter.remaining
    SlidingWindowLimiter.currentCount SlidingWindowLimiter.tryAcquire
  simp only [SlidingWindowLimiter.windowStart, retains.window]
  by_cases representable : earliest ≤ now - config.window
  · cases call with
    | tryAcquire =>
        by_cases room
          : (history.limiter.retain (now - config.window)).timestamps.length
            < (history.limiter.retain (now - config.window)).maxCommands
        · simpa [representable, room] using
            retains.acquire later (room.trans_eq retains.maxCommands)
        · simpa [representable, room] using retains.retain later
    | currentCount => simpa [representable] using retains.retain later
    | remaining => simpa [representable] using retains.retain later
  · cases call <;> simpa [representable] using retains.elapse later

end WindowHistory.Retains

theorem WindowHistory.retains_start : (WindowHistory.start config clock).Retains config where
  maxCommands := rfl
  window := rfl
  past := by
    intro time member
    cases member
  recent _ _ := rfl
  admitted := .nil

theorem WindowHistory.retains_of_reaches
    (reaches : (windowSystem earliest).Reaches (.start config clock) history)
    : history.Retains config :=
  reaches.invariant (WindowHistory.Retains config) WindowHistory.retains_start
    (fun retains _ called => retains.step called)

-----------------------------------------------------------------------------------------
-- Admission
-----------------------------------------------------------------------------------------

/-- Whatever callers do, any stretch of time that is so many windows long, wherever it begins, sees at
most the maximum of acquisitions for each of them.
-/
theorem acquired_within_windows
    (reaches : (windowSystem earliest).Reaches (.start config clock) history)
    (since : Int) (count : Nat)
    : history.acquired.countP (fun time => since ≤ time ∧ time < since + count * config.window)
      ≤ config.maxCommands * count :=
  (WindowHistory.retains_of_reaches reaches).admitted.count_between since count

/-- One command a second, taken at once. -/
def acquiredOnce : WindowHistory :=
  (WindowHistory.start (.perSecond 1) 0).after (-5000000000) 0 .tryAcquire

theorem reaches_acquiredOnce
    : (windowSystem (-5000000000)).Reaches (.start (.perSecond 1) 0) acquiredOnce :=
  .single trivial ⟨0, le_refl 0, rfl⟩

theorem acquired_within_windows_once
    : acquiredOnce.acquired.countP
        (fun time : Int => -1 ≤ time ∧ time < -1 + (1 : Nat) * (1000000000 : Nat))
      ≤ 1 * 1 :=
  acquired_within_windows reaches_acquiredOnce (-1) 1

/-- A call is refused exactly when the window that ends with it holds the maximum of acquisitions, and
what remains is the rest of the maximum.
-/
theorem refused_iff_window_full
    (reaches : (windowSystem earliest).Reaches (.start config clock) history)
    (later : history.clock ≤ now) (representable : earliest ≤ now - config.window)
    : let held := history.acquired.countP (fun time => now - config.window < time)
      held ≤ config.maxCommands
      ∧ ((history.limiter.tryAcquire earliest now).map Prod.snd = some false
          ↔ held = config.maxCommands)
      ∧ (history.limiter.remaining earliest now).map Prod.snd
          = some (config.maxCommands - held) := by
  have retains := WindowHistory.retains_of_reaches reaches
  have held : (history.limiter.retain (now - config.window)).timestamps.length
      = history.acquired.countP (fun time => now - config.window < time) := by
    rw [retains.retain_timestamps later, List.countP_eq_length_filter]
  have limited : (history.limiter.retain (now - config.window)).maxCommands = config.maxCommands :=
    retains.maxCommands
  have most : history.acquired.countP (fun time => now - config.window < time)
      ≤ config.maxCommands := by
    have window := retains.admitted.count_window (now - config.window + 1)
    refine le_trans (List.countP_mono_left ?_) window
    intro time member recent
    have past := retains.past time member
    simp only [decide_eq_true_eq] at recent ⊢
    omega
  dsimp only
  refine ⟨most, ?_, ?_⟩
  · simp only [SlidingWindowLimiter.tryAcquire, SlidingWindowLimiter.windowStart, retains.window,
      representable, if_true, Option.bind_eq_bind, Option.bind_some, held, limited]
    split_ifs with room
    · simp only [Option.map_some, Option.some.injEq, Bool.true_eq_false, false_iff]
      exact room.ne
    · simp only [Option.map_some, true_iff]
      omega
  · simp [SlidingWindowLimiter.remaining, SlidingWindowLimiter.currentCount,
      SlidingWindowLimiter.windowStart, retains.window, representable, held, limited]

/-- Half a second later the window is full. -/
theorem refused_iff_window_full_once
    : (acquiredOnce.limiter.tryAcquire (-5000000000) 500000000).map Prod.snd = some false :=
  (refused_iff_window_full reaches_acquiredOnce (by decide) (by decide)).2.1.mpr (by decide)

end Lane
