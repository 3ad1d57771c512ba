import Fundex.LoadManager

namespace Fundex

/-- The open overload episode a kill state records: `none` when there is none, `some t` when one
is open and was last reported (by `Start` or `Ongoing`) at instant `t`. -/
def KillState.episode (s : KillState) : Option Nat := s.overloadStart.map fun _ => s.lastOverloadLog

/-- Reads one logged event, at the instant its commit read, against the open episode: the
episode after it, or `none` when the event cannot come there. -/
def episodeStep : Option Nat → Nat × KillStateLogEvent → Option (Option Nat)
  | none, (t, .start) => some (some t)
  | none, (_, .skip) => some none
  | some _, (_, .resolved _) => some none
  | some last, (t, .ongoing _) =>
    if last + Duration.fromSecs 30 < t then some (some t) else none
  | some last, (_, .settling) => some (some last)
  | some last, (_, .skip) => some (some last)
  | _, _ => none

/-- A log read from no open episode: the episode it leaves open, or `none` when it is not a log
of episodes. -/
def episodes (log : List (Nat × KillStateLogEvent)) : Option (Option Nat) :=
  log.foldlM episodeStep none

example : episodes [(0, .start), (1, .settling), (2, .resolved 2), (3, .start)] = some (some 3) :=
  rfl

theorem episodeStep_commit (s : KillState) (now : Nat) (k : F64) (ov : Bool) (clock : Nat) :
    episodeStep s.episode (now, (s.commit now k ov clock).2) =
      some (s.commit now k ov clock).1.episode := by
  simp only [KillState.commit, KillState.logEvent, KillState.episode]
  cases s.overloadStart with
  | none => cases ov <;> rfl
  | some start =>
    cases ov with
    | false => by_cases hk : F64.beq k F64.zero <;> simp [hk, episodeStep]
    | true =>
      by_cases ht : now - s.lastOverloadLog > Duration.fromSecs 30
      · simp only [Option.map_some', ht, if_true, Bool.not_true, Bool.false_eq_true, if_false,
          episodeStep]
        rw [if_pos (by omega)]
      · simp [ht, episodeStep]

section Runs

variable (cfg : Config) (r : Rounding)

theorem World.episodes_of_run {w w' : World} {as : List Action} {cs : List Commit}
    (hrun : w.run cfg r as = some (w', cs)) :
    (cs.map Commit.event).foldlM episodeStep w.lm.killState.episode =
      some w'.lm.killState.episode := by
  induction as generalizing w cs with
  | nil => cases hrun; rfl
  | cons a as ih =>
    obtain ⟨w1, cs1, h1, h2, rfl⟩ := World.run_cons cfg r hrun
    have ih1 := ih h2
    rw [World.act_killState cfg r h1] at ih1
    cases hc : w.commitOf a with
    | none => simpa [hc] using ih1
    | some c =>
      rw [← World.commitOf_killState hc]
      simpa [hc, Commit.event, episodeStep_commit] using ih1

theorem run_logs_episodes {clock : Nat} {as : List Action} {w : World} {commits : List Commit}
    (hrun : (World.init cfg clock).run cfg r as = some (w, commits)) :
    episodes (commits.map Commit.event) = some w.lm.killState.episode :=
  World.episodes_of_run cfg r hrun

end Runs

/-- Overload starts at 100 s, is still on at 131 s, and is resolved at 133 s. -/
def overloadEpisode : List Action :=
  .recordWork 1 5000000 :: overloadedCall 0 ++ .tick 31000000000 :: overloadedCall 1 ++
    .tick 2000000000 :: .decide 1 :: List.replicate 5 (.advance 2 none 0)

set_option maxRecDepth 100000 in
theorem run_logs_episodes_overload :
    ∃ w commits, (World.init raceConfig 100000000000).run raceConfig .exact overloadEpisode =
        some (w, commits) ∧
      commits.map Commit.event = [(100000000000, .start),
        (131000000000, .ongoing 31000000000), (133000000000, .resolved 33000000000)] ∧
      episodes (commits.map Commit.event) = some w.lm.killState.episode := by
  obtain ⟨⟨w, commits⟩, hrun, hp⟩ := Option.map_eq_some'.mp
    (show ((World.init raceConfig 100000000000).run raceConfig .exact overloadEpisode).map
        (fun x => decide (x.2.map Commit.event = [(100000000000, .start),
          (131000000000, .ongoing 31000000000), (133000000000, .resolved 33000000000)])) =
        some true by
      with_unfolding_all decide)
  exact ⟨w, commits, hrun, of_decide_eq_true hp, run_logs_episodes raceConfig .exact hrun⟩

end Fundex
