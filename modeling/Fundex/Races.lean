import Fundex.Safety

namespace Fundex

section Fresh

variable (cfg : Config) (r : Rounding)

theorem nextKillRate_zero_down : nextKillRate r F64.zero false = F64.zero := by
  have hd : 0 ≤ r.rnd (r.rnd 2 * r.rnd (1 / 10)) :=
    r.rnd_nonneg (mul_nonneg (r.rnd_nonneg (by norm_num)) (r.rnd_nonneg (by norm_num)))
  have : r.rnd (0 - r.rnd (r.rnd 2 * r.rnd (1 / 10))) ≤ 0 := r.rnd_le_of_le (by linarith) r.rnd_zero
  rw [nextKillRate, if_neg Bool.false_ne_true]
  simp only [killRateStepDown, killRateStepUp, F64.lit, F64.mul_fin, F64.zero, F64.sub_fin,
    F64.max_fin, max_eq_right this]

theorem F64.eq_zero_of_beq {k : F64} (h : F64.beq k F64.zero = true) : k = F64.zero := by
  cases k <;> simp_all [F64.beq, F64.zero]

theorem KillState.commit_overloadStart_none {s : KillState} {now clock : Nat} {k : F64}
    {ov : Bool} (h : (s.commit now k ov clock).1.overloadStart = none) :
    ov = false ∧ (s.overloadStart = none ∨ F64.beq k F64.zero = true) := by
  unfold KillState.commit KillState.logEvent at h
  cases ho : s.overloadStart <;> cases ov <;> simp_all <;> split_ifs at h with hk
  exact hk

theorem Commit.result_resolved {c : Commit} (hc : c.Fresh r)
    (hres : c.killState.overloadStart = none → c.killState.killRate = F64.zero) :
    c.result.overloadStart = none → c.result.killRate = F64.zero := by
  intro hn
  simp only [Commit.result, KillState.commit_killRate] at hn ⊢
  obtain ⟨hov, hprev | hz⟩ := KillState.commit_overloadStart_none hn
  · rw [hc.2, hres hprev, hov, nextKillRate_zero_down]
  · exact F64.eq_zero_of_beq hz

theorem Commit.effective {c : Commit} (hc : c.Fresh r) (rest : List (Bool × Nat)) :
    effectiveUpdates r c.killState ((c.overloaded, c.now) :: rest) =
      effectiveUpdates r c.result rest := by
  rw [effectiveUpdates, if_pos hc.1, ← hc.2, Commit.result,
    KillState.commit_fst_clock _ _ _ _ c.now c.clock]

theorem World.run_resolved {w w' : World} {as : List Action} {cs : List Commit}
    (hrun : w.run cfg r as = some (w', cs)) (hfresh : ∀ c ∈ cs, c.Fresh r)
    (hres : w.lm.killState.overloadStart = none → w.lm.killState.killRate = F64.zero) :
    w'.lm.killState.overloadStart = none → w'.lm.killState.killRate = F64.zero := by
  induction as generalizing w cs with
  | nil => cases hrun; exact hres
  | cons a as ih =>
    obtain ⟨w1, cs1, h1, h2, rfl⟩ := World.run_cons cfg r hrun
    refine ih h2 (fun c hc => hfresh c (List.mem_append_right _ hc)) ?_
    rw [World.act_killState cfg r h1]
    cases hc : w.commitOf a with
    | none => exact hres
    | some c =>
      rw [← World.commitOf_killState hc] at hres
      exact Commit.result_resolved r (hfresh c (by simp [hc])) hres

theorem killRate_zero_of_fresh {clock : Nat} {as : List Action} {w : World}
    {commits : List Commit} (hrun : (World.init cfg clock).run cfg r as = some (w, commits))
    (hfresh : ∀ c ∈ commits, c.Fresh r) (h : w.lm.killState.overloadStart = none) :
    w.lm.killState.killRate = F64.zero :=
  World.run_resolved cfg r hrun hfresh (fun _ => rfl) h

theorem World.run_effectiveUpdates {w w' : World} {as : List Action} {cs : List Commit}
    (hrun : w.run cfg r as = some (w', cs)) (hfresh : ∀ c ∈ cs, c.Fresh r) :
    effectiveUpdates r w.lm.killState (cs.map fun c => (c.overloaded, c.now)) =
      some w'.lm.killState := by
  induction as generalizing w cs with
  | nil => cases hrun; rfl
  | cons a as ih =>
    obtain ⟨w1, cs1, h1, h2, rfl⟩ := World.run_cons cfg r hrun
    have ih1 := ih h2 (fun c hc => hfresh c (List.mem_append_right _ hc))
    rw [World.act_killState cfg r h1] at ih1
    cases hc : w.commitOf a with
    | none => simpa [hc] using ih1
    | some c =>
      rw [← World.commitOf_killState hc]
      simpa [hc, Commit.effective r (hfresh c (by simp [hc]))] using ih1

theorem killState_refines_of_fresh {clock : Nat} {as : List Action} {w : World}
    {commits : List Commit} (hrun : (World.init cfg clock).run cfg r as = some (w, commits))
    (hfresh : ∀ c ∈ commits, c.Fresh r) :
    effectiveUpdates r (KillState.new clock) (commits.map fun c => (c.overloaded, c.now)) =
      some w.lm.killState :=
  World.run_effectiveUpdates cfg r hrun hfresh

end Fresh

/-- Call 0 raises the rate to `0.1` at 100 s. At 102 s call 1, not overloaded, reaches its
commit; call 2 then reads the same snapshot and stops before its interval test, and call 1
resolves the overload. -/
def freshRecovery : List Action :=
  .recordWork 1 5000000 :: overloadedCall 0 ++
  .tick 2000000000 :: .decide 1 :: List.replicate 4 (.advance 1 none 0) ++
  .decide 1 :: List.replicate 3 (.advance 2 none 0) ++ [.advance 1 none 0]

set_option maxRecDepth 100000 in
theorem killRate_zero_of_fresh_overlapping :
    ∃ w commits, (World.init raceConfig 100000000000).run raceConfig .exact freshRecovery =
        some (w, commits) ∧ (∀ c ∈ commits, c.Fresh .exact) ∧ commits.length = 2 ∧
      (w.calls.filter fun c => !c.phase.isDone).length = 3 ∧
      w.lm.killState.overloadStart = none ∧ w.lm.killState.killRate = F64.zero := by
  obtain ⟨⟨w, commits⟩, hrun, hp⟩ := Option.map_eq_some'.mp
    (show ((World.init raceConfig 100000000000).run raceConfig .exact freshRecovery).map
        (fun x => decide (∀ c ∈ x.2, c.Fresh .exact) && decide (x.2.length = 2) &&
          decide ((x.1.calls.filter fun c => !c.phase.isDone).length = 3) &&
          decide (x.1.lm.killState.overloadStart = none)) = some true by
      with_unfolding_all decide)
  simp only [Bool.and_eq_true, decide_eq_true_eq] at hp
  obtain ⟨⟨⟨hf, hl⟩, hc⟩, hn⟩ := hp
  exact ⟨w, commits, hrun, hf, hl, hc, hn, killRate_zero_of_fresh raceConfig .exact hrun hf hn⟩

set_option maxRecDepth 100000 in
theorem killState_refines_of_fresh_recovery :
    ∃ w commits, (World.init raceConfig 100000000000).run raceConfig .exact freshRecovery =
        some (w, commits) ∧ (∀ c ∈ commits, c.Fresh .exact) ∧
      commits.map (fun c => (c.overloaded, c.now)) =
        [(true, 100000000000), (false, 102000000000)] ∧
      effectiveUpdates .exact (KillState.new 100000000000)
        (commits.map fun c => (c.overloaded, c.now)) = some w.lm.killState := by
  obtain ⟨⟨w, commits⟩, hrun, hp⟩ := Option.map_eq_some'.mp
    (show ((World.init raceConfig 100000000000).run raceConfig .exact freshRecovery).map
        (fun x => decide (∀ c ∈ x.2, c.Fresh .exact) &&
          decide (x.2.map (fun c => (c.overloaded, c.now)) =
            [(true, 100000000000), (false, 102000000000)])) = some true by
      with_unfolding_all decide)
  simp only [Bool.and_eq_true, decide_eq_true_eq] at hp
  exact ⟨w, commits, hrun, hp.1, hp.2, killState_refines_of_fresh raceConfig .exact hrun hp.1⟩

/-- Call 1 reads the rate `0.1`; three overloaded updates raise it to `0.271` and call 4 reads
that; call 1 then resolves the overload and call 4 commits its stale recovery step. -/
def staleRecovery : List Action :=
  .recordWork 1 5000000 :: overloadedCall 0 ++ [.advance 0 none 0] ++
  .decide 1 :: List.replicate 3 (.advance 1 none 0) ++
  .tick 2000000000 :: overloadedCall 2 ++ [.advance 2 none 0] ++
  .tick 2000000000 :: overloadedCall 3 ++ [.advance 3 none 0] ++
  .decide 1 :: List.replicate 3 (.advance 4 none 0) ++
  [.tick 2000000000, .advance 1 none 0, .advance 1 none 0, .advance 4 none 0, .advance 4 none 0]

set_option maxRecDepth 100000 in
theorem overloadStart_none_with_positive_rate :
    ∃ w, Reachable raceConfig .exact false w ∧ w.lm.killState.overloadStart = none ∧
      w.lm.killState.killRate = .fin (71 / 1000) := by
  obtain ⟨w, _, -, hw, hp⟩ := World.run_check raceConfig .exact
    (show ((World.init raceConfig 100000000000).run raceConfig .exact staleRecovery).map
        (fun x => decide (x.1.lm.killState.overloadStart = none) &&
          decide (x.1.lm.killState.killRate = .fin (71 / 1000))) = some true by
      with_unfolding_all decide)
  simp only [Bool.and_eq_true, decide_eq_true_eq] at hp
  exact ⟨w, hw, hp⟩

/-- Calls 0 and 1 hold the same snapshot. Call 0 reads the clock at 100 s, call 1 a second later;
call 1 commits first, and then call 0 stores its older reading. -/
def staleClock : List Action :=
  .recordWork 1 5000000 :: (.decide 1 :: List.replicate 3 (.advance 0 (some 1000000000) 0)) ++
  (.decide 1 :: List.replicate 3 (.advance 1 (some 1000000000) 0)) ++
  [.advance 0 none 0, .tick 1000000000, .advance 1 none 0, .advance 1 none 0, .advance 0 none 0]

set_option maxRecDepth 100000 in
theorem lastUpdate_decreases :
    ∃ w commits, (World.init raceConfig 100000000000).run raceConfig .exact staleClock =
        some (w, commits) ∧
      commits.map (fun c => (c.killState.lastUpdate, c.result.lastUpdate)) =
        [(40000000000, 101000000000), (101000000000, 100000000000)] ∧
      w.lm.killState.lastUpdate = 100000000000 := by
  obtain ⟨⟨w, commits⟩, hrun, hp⟩ := Option.map_eq_some'.mp
    (show ((World.init raceConfig 100000000000).run raceConfig .exact staleClock).map
        (fun x => decide (x.2.map (fun c => (c.killState.lastUpdate, c.result.lastUpdate)) =
          [(40000000000, 101000000000), (101000000000, 100000000000)]) &&
          decide (x.1.lm.killState.lastUpdate = 100000000000)) = some true by
      with_unfolding_all decide)
  simp only [Bool.and_eq_true, decide_eq_true_eq] at hp
  exact ⟨w, commits, hrun, hp⟩

end Fundex
