import Fundex.LoadManager

namespace Fundex

section Rates

variable (cfg : Config) (r : Rounding)

theorem nextKillRate_isProb {k : F64} (hk : F64.IsProb r k) (ov : Bool) :
    F64.IsProb r (nextKillRate r k ov) := by
  obtain ⟨q, rfl, h0, h1, hq⟩ := hk
  have hs := r.rnd_nonneg (show (0 : ℚ) ≤ 1 / 10 by norm_num)
  cases ov with
  | false =>
    have hd : 0 ≤ r.rnd (r.rnd 2 * r.rnd (1 / 10)) :=
      r.rnd_nonneg (mul_nonneg (r.rnd_nonneg (by norm_num)) hs)
    have hle : r.rnd (q - r.rnd (r.rnd 2 * r.rnd (1 / 10))) ≤ q := r.rnd_le_of_le (by linarith) hq
    rw [nextKillRate, if_neg Bool.false_ne_true]
    simp only [killRateStepDown, killRateStepUp, F64.lit, F64.mul_fin, F64.sub_fin, F64.zero,
      F64.max_fin]
    exact ⟨_, rfl, le_max_right _ _, max_le (hle.trans h1) zero_le_one, r.rnd_max_zero (r.idem _)⟩
  | true =>
    have ha : 0 ≤ r.rnd (r.rnd (1 / 10) * r.rnd (1 - q)) :=
      r.rnd_nonneg (mul_nonneg hs (r.rnd_nonneg (by linarith)))
    have hge : q ≤ r.rnd (q + r.rnd (r.rnd (1 / 10) * r.rnd (1 - q))) :=
      r.le_rnd_of_le (by linarith) hq
    rw [nextKillRate, if_pos rfl]
    simp only [killRateStepUp, F64.lit, F64.one, F64.sub_fin, F64.mul_fin, F64.add_fin, F64.min_fin]
    exact ⟨_, rfl, le_min (h0.trans hge) zero_le_one, min_le_right _ _, r.rnd_min_one (r.idem _)⟩

/-- What a call holds about the kill rate: a snapshot in `[0, 1]`, which past the early return
is nonzero unless the system is overloaded. A panicked call satisfies nothing. -/
def Phase.RatesOk : Phase → Prop
  | .effort ov k _ => F64.IsProb r k ∧ (ov = true ∨ F64.beq k F64.zero = false)
  | .updateKillRate _ k _ _ _ | .commit _ k _ _ _ | .decline k _ _ => F64.IsProb r k
  | .panicked => False
  | _ => True

theorem updateKillRate_assert {ov : Bool} {k : F64} {l : Nat}
    (hk : (Phase.effort ov k l).RatesOk r) : (ov || F64.lt F64.zero k) = true := by
  obtain ⟨⟨q, rfl, h0, -, -⟩, hov⟩ := hk
  rcases hov with rfl | hne
  · rfl
  · have : 0 < q := lt_of_le_of_ne h0 (by simpa [F64.zero, eq_comm] using hne)
    simp [F64.zero, this]

theorem decideStart_ratesOk (lm : LoadManager) (h : UInt64) :
    (decideStart cfg lm h).RatesOk r := by
  unfold decideStart; split_ifs <;> trivial

theorem decideKillState_ratesOk {lm : LoadManager} (hk : F64.IsProb r lm.killState.killRate)
    (ov : Bool) : (decideKillState lm ov).RatesOk r := by
  unfold decideKillState
  split
  · trivial
  · next h => exact ⟨hk, by cases ov <;> simp_all⟩

theorem decideEffort_ratesOk (lm : LoadManager) (h : UInt64) {ov : Bool} {k : F64} {l : Nat}
    (hk : (Phase.effort ov k l).RatesOk r) : (decideEffort cfg r lm h ov k l).RatesOk r := by
  have hassert := updateKillRate_assert r hk
  unfold decideEffort
  split
  dsimp only
  split_ifs
  · trivial
  · trivial
  · exact hk.1

theorem decideUpdateKillRate_ratesOk {k : F64} (hk : F64.IsProb r k) (ov : Bool)
    (l : Nat) (q t : F64) (now : Nat) : (decideUpdateKillRate r ov k l q t now).RatesOk r := by
  unfold decideUpdateKillRate
  split
  · exact nextKillRate_isProb r hk ov
  · exact hk

theorem genBool_dropProbability_ne_none (k q t : F64) (v : UInt64) :
    genBool r (dropProbability r k q t) v ≠ none := by
  obtain ⟨p, hp, h0, h1⟩ := F64.min_one_max_zero (F64.div r (F64.mul r k q) t)
  rw [dropProbability, hp, genBool]
  rcases h1.lt_or_eq with h1 | rfl
  · simp [F64.zero, F64.one, h0, h1]
  · simp [F64.zero, F64.one]

theorem decideDecline_ratesOk (k q t : F64) (v : UInt64) :
    (decideDecline cfg r k q t v).RatesOk r := by
  have := genBool_dropProbability_ne_none r k q t v
  unfold decideDecline
  split
  · trivial
  · trivial
  · contradiction

theorem Phase.step_ratesOk {lm : LoadManager} (hk : F64.IsProb r lm.killState.killRate)
    (clock : Nat) (h : UInt64) (sa : Option Nat) (v : UInt64) {ph : Phase}
    (hph : ph.RatesOk r) :
    F64.IsProb r (ph.step cfg r lm clock h sa v).1.killState.killRate ∧
      (ph.step cfg r lm clock h sa v).2.RatesOk r := by
  cases ph with
  | killState ov => exact ⟨hk, decideKillState_ratesOk r hk ov⟩
  | effort ov k l => exact ⟨hk, decideEffort_ratesOk cfg r lm h hph⟩
  | updateKillRate ov k l q t => exact ⟨hk, decideUpdateKillRate_ratesOk r hph ov l q t clock⟩
  | commit ov k now q t => exact ⟨by simpa [Phase.step] using hph, hph⟩
  | decline k q t => exact ⟨hk, decideDecline_ratesOk cfg r k q t v⟩
  | panicked => exact hph.elim
  | _ => exact ⟨hk, trivial⟩

structure RatesOk (w : World) : Prop where
  killRate : F64.IsProb r w.lm.killState.killRate
  calls : ∀ c ∈ w.calls, c.phase.RatesOk r

theorem RatesOk.step {serial : Bool} {w w' : World} (hw : RatesOk r w)
    (hs : Step cfg r serial w w') : RatesOk r w' := by
  cases hs with
  | tick => exact ⟨hw.killRate, hw.calls⟩
  | recordWork => exact ⟨by simpa using hw.killRate, hw.calls⟩
  | queryPermit => exact ⟨hw.killRate, hw.calls⟩
  | decide h =>
    refine ⟨hw.killRate, fun c hc => ?_⟩
    rcases List.mem_append.mp hc with hc | hc
    · exact hw.calls c hc
    · rw [List.mem_singleton.mp hc]
      exact decideStart_ratesOk cfg r w.lm h
  | advance i c hc sa v =>
    obtain ⟨hk', hph'⟩ := Phase.step_ratesOk cfg r hw.killRate w.clock c.shapeHash sa v
      (hw.calls c (List.getElem?_mem hc))
    refine ⟨hk', fun c' hc' => ?_⟩
    rcases List.mem_or_eq_of_mem_set hc' with hc' | rfl
    · exact hw.calls c' hc'
    · exact hph'

theorem Reachable.ratesOk {serial : Bool} {w : World} (hw : Reachable cfg r serial w) :
    RatesOk r w := by
  induction hw with
  | init clock => exact ⟨F64.isProb_zero r, by simp [World.init]⟩
  | step _ hs ih => exact ih.step cfg r hs

/-- The kill rate a call holds: the snapshot it read, then the rate `update_kill_rate` returns. -/
def Phase.killRate? : Phase → Option F64
  | .effort _ k _ | .updateKillRate _ k _ _ _ | .commit _ k _ _ _ | .decline k _ _ => some k
  | _ => none

theorem killRate_isProb_no_panic {serial : Bool} {w : World} (hw : Reachable cfg r serial w) :
    F64.IsProb r w.lm.killState.killRate ∧
      ∀ c ∈ w.calls, (∀ k ∈ c.phase.killRate?, F64.IsProb r k) ∧ c.phase ≠ .panicked := by
  have hinv := hw.ratesOk
  refine ⟨hinv.killRate, fun c hc => ?_⟩
  have := hinv.calls c hc
  cases hph : c.phase <;> simp_all [Phase.RatesOk, Phase.killRate?]

end Rates

/-- Call 0 commits the rate `0.1`; call 1 reads it and stops before its interval test. -/
def overloadedPair : List Action :=
  .recordWork 1 5000000 :: overloadedCall 0 ++
    .decide 1 :: List.replicate 3 (.advance 1 (some 1000000000) 0)

set_option maxRecDepth 100000 in
theorem killRate_isProb_no_panic_overloaded :
    ∃ w, Reachable raceConfig .exact false w ∧ w.lm.killState.killRate = .fin (1 / 10) ∧
      w.calls.map (fun c => c.phase.killRate?) = [some (.fin (1 / 10)), some (.fin (1 / 10))] ∧
      F64.IsProb .exact w.lm.killState.killRate ∧
      ∀ c ∈ w.calls, (∀ k ∈ c.phase.killRate?, F64.IsProb .exact k) ∧ c.phase ≠ .panicked := by
  obtain ⟨w, _, -, hw, hp⟩ := World.run_check raceConfig .exact
    (show ((World.init raceConfig 100000000000).run raceConfig .exact overloadedPair).map
        (fun x => decide (x.1.lm.killState.killRate = .fin (1 / 10)) &&
          decide (x.1.calls.map (fun c => c.phase.killRate?) =
            [some (.fin (1 / 10)), some (.fin (1 / 10))])) = some true by
      with_unfolding_all decide)
  simp only [Bool.and_eq_true, decide_eq_true_eq] at hp
  exact ⟨w, hw, hp.1, hp.2, killRate_isProb_no_panic raceConfig .exact hw⟩

section Jail

variable (cfg : Config) (r : Rounding)

theorem Config.simulated_of_simulate (h : cfg.simulate = true) (d : Decision) :
    cfg.simulated d = .proceed := by
  simp [Config.simulated, h]

theorem Config.simulated_ne_tooExpensive {d : Decision} (hd : d ≠ .tooExpensive) :
    cfg.simulated d ≠ .tooExpensive := by
  unfold Config.simulated; split <;> simp [hd]

theorem decideStart_done {lm : LoadManager} {h : UInt64} {d : Decision}
    (hd : decideStart cfg lm h = .done d) :
    (d = .tooExpensive ∧ h ∈ cfg.blockedQueries) ∨ d = .proceed ∨
      (d = cfg.simulated .tooExpensive ∧ h ∈ lm.jailedQueries) := by
  unfold decideStart at hd
  split_ifs at hd with h1 h2 h3 <;> cases hd
  · exact .inl ⟨rfl, h1⟩
  · exact .inr (.inl rfl)
  · exact .inr (.inr ⟨rfl, h3⟩)

theorem Phase.step_snd_eq_done {lm : LoadManager} {clock : Nat} {h : UInt64} {sa : Option Nat}
    {v : UInt64} {ph : Phase} {d : Decision} (hd : (ph.step cfg r lm clock h sa v).2 = .done d) :
    ph = .done d ∨ (ph = .jail ∧ d = cfg.simulated .tooExpensive) ∨ d = .proceed ∨
      d = cfg.simulated .throttle := by
  cases ph with
  | killState ov =>
    simp only [Phase.step, decideKillState] at hd
    split at hd <;> cases hd
    exact .inr (.inr (.inl rfl))
  | effort ov k l =>
    simp only [Phase.step, decideEffort] at hd
    split at hd
    · cases hd
      exact .inr (.inr (.inl rfl))
    · split_ifs at hd
  | jail => exact .inr (.inl ⟨rfl, (Phase.done.inj hd).symm⟩)
  | updateKillRate ov k l q t =>
    simp only [Phase.step, decideUpdateKillRate] at hd
    split at hd <;> cases hd
  | decline k q t =>
    simp only [Phase.step, decideDecline] at hd
    split at hd <;> cases hd
    · exact .inr (.inr (.inr rfl))
    · exact .inr (.inr (.inl rfl))
  | done d' => exact .inl hd
  | _ => cases hd

theorem Step.jailed_subset {serial : Bool} {w w' : World} (hs : Step cfg r serial w w') :
    w.lm.jailedQueries ⊆ w'.lm.jailedQueries := by
  cases hs with
  | recordWork => simp
  | advance i c hc sa v =>
    rcases Phase.step_fst cfg r w.lm w.clock c.shapeHash sa v c.phase with
      h | ⟨-, h⟩ | ⟨_, _, _, _, _, -, h⟩ <;> simp only [World.advance, h]
    · exact List.Subset.refl _
    · exact List.subset_insert _ _
    · exact List.Subset.refl _
  | _ => exact List.Subset.refl _

theorem Steps.jailed_subset {serial : Bool} {w w' : World}
    (hs : Relation.ReflTransGen (Step cfg r serial) w w') :
    w.lm.jailedQueries ⊆ w'.lm.jailedQueries := by
  induction hs with
  | refl => exact List.Subset.refl _
  | tail _ hs ih => exact ih.trans (hs.jailed_subset cfg r)

structure JailOk (w : World) : Prop where
  refused : ∀ c ∈ w.calls, c.phase = .done .tooExpensive →
    c.shapeHash ∈ cfg.blockedQueries ∨ c.shapeHash ∈ w.lm.jailedQueries
  simulated : cfg.simulate = true → ∀ c ∈ w.calls, c.shapeHash ∉ cfg.blockedQueries →
    ∀ d, c.phase = .done d → d = .proceed

theorem JailOk.mono {w w' : World} (hw : JailOk cfg w) (hc : w'.calls = w.calls)
    (hj : w.lm.jailedQueries ⊆ w'.lm.jailedQueries) : JailOk cfg w' :=
  ⟨fun c hc' hd => (hw.refused c (hc ▸ hc') hd).imp id (@hj _),
    fun hs c hc' => hw.simulated hs c (hc ▸ hc')⟩

theorem JailOk.step {serial : Bool} {w w' : World} (hw : JailOk cfg w)
    (hs : Step cfg r serial w w') : JailOk cfg w' := by
  have hj := hs.jailed_subset cfg r
  cases hs with
  | decide h =>
    refine ⟨fun c hc hd => ?_, fun hsim c hc hb d hd => ?_⟩ <;>
      rcases List.mem_append.mp hc with hc | hc
    · exact hw.refused c hc hd
    · rw [List.mem_singleton.mp hc] at hd ⊢
      rcases decideStart_done cfg hd with ⟨-, hb⟩ | h' | ⟨h', hj'⟩
      · exact .inl hb
      · cases h'
      · exact .inr hj'
    · exact hw.simulated hsim c hc hb d hd
    · rw [List.mem_singleton.mp hc] at hd hb
      rcases decideStart_done cfg hd with ⟨-, hb'⟩ | h' | ⟨h', -⟩
      · exact absurd hb' hb
      · exact h'
      · rw [h', cfg.simulated_of_simulate hsim]
  | advance i c hc sa v =>
    have hmem := List.getElem?_mem hc
    refine ⟨fun c' hc' hd => ?_, fun hsim c' hc' hb d hd => ?_⟩ <;>
      rcases List.mem_or_eq_of_mem_set hc' with hc' | rfl
    · exact (hw.refused c' hc' hd).imp id (@hj _)
    · rcases Phase.step_snd_eq_done cfg r hd with h' | ⟨h', -⟩ | h' | h'
      · exact (hw.refused c hmem h').imp id (@hj _)
      · refine .inr ?_
        simp only [World.advance, h', Phase.step]
        exact List.mem_insert_self _ _
      · cases h'
      · exact absurd h'.symm (cfg.simulated_ne_tooExpensive (by decide))
    · exact hw.simulated hsim c' hc' hb d hd
    · rcases Phase.step_snd_eq_done cfg r hd with h' | ⟨-, h'⟩ | h' | h'
      · exact hw.simulated hsim c hmem hb d h'
      all_goals simp only [h', cfg.simulated_of_simulate hsim]
  | _ => exact hw.mono cfg rfl hj

theorem Reachable.jailOk {serial : Bool} {w : World} (hw : Reachable cfg r serial w) :
    JailOk cfg w := by
  induction hw with
  | init clock => exact ⟨by simp [World.init], by simp [World.init]⟩
  | step _ hs ih => exact ih.step cfg r hs

theorem jailed_laws {serial : Bool} {w : World} (hw : Reachable cfg r serial w) :
    (∀ c ∈ w.calls, c.phase = .done .tooExpensive →
      c.shapeHash ∈ cfg.blockedQueries ∨ c.shapeHash ∈ w.lm.jailedQueries) ∧
    (∀ h ∈ w.lm.jailedQueries, ∀ w', Relation.ReflTransGen (Step cfg r serial) w w' →
      h ∈ w'.lm.jailedQueries ∧ (h ∉ cfg.blockedQueries → cfg.loadManagementDisabled = false →
        decideStart cfg w'.lm h = .done (cfg.simulated .tooExpensive))) ∧
    (cfg.simulate = true → ∀ c ∈ w.calls, c.shapeHash ∉ cfg.blockedQueries →
      ∀ d, c.phase = .done d → d = .proceed) := by
  have hinv := hw.jailOk
  refine ⟨hinv.refused, fun h hh w' hs => ?_, hinv.simulated⟩
  have hh' := Steps.jailed_subset cfg r hs hh
  refine ⟨hh', fun hb hen => ?_⟩
  simp [decideStart, hb, hen, hh']

end Jail

/-- Jailing on above half of the effort, shape `7` blocked. -/
def jailConfig : Config := ⟨1000000, true, .fin (1 / 2), false, 300000000000, 1000000000, [7]⟩

set_option maxRecDepth 100000 in
theorem jailed_laws_jailing :
    ∃ w, Reachable jailConfig .exact false w ∧ w.lm.jailedQueries = [1] ∧
      w.calls = [⟨1, .done .tooExpensive⟩, ⟨7, .done .tooExpensive⟩] ∧
      (∀ c ∈ w.calls, c.phase = .done .tooExpensive →
        c.shapeHash ∈ jailConfig.blockedQueries ∨ c.shapeHash ∈ w.lm.jailedQueries) ∧
      (∀ h ∈ w.lm.jailedQueries, ∀ w', Relation.ReflTransGen (Step jailConfig .exact false) w w' →
        h ∈ w'.lm.jailedQueries ∧ (h ∉ jailConfig.blockedQueries →
          jailConfig.loadManagementDisabled = false →
          decideStart jailConfig w'.lm h = .done (jailConfig.simulated .tooExpensive))) ∧
      (jailConfig.simulate = true → ∀ c ∈ w.calls, c.shapeHash ∉ jailConfig.blockedQueries →
        ∀ d, c.phase = .done d → d = .proceed) := by
  obtain ⟨w, _, -, hw, hp⟩ := World.run_check jailConfig .exact
    (show ((World.init jailConfig 100000000000).run jailConfig .exact
        (.recordWork 1 5000000 :: .decide 1 :: List.replicate 4 (.advance 0 (some 1000000000) 0) ++
          [.decide 7])).map
        (fun x => decide (x.1.lm.jailedQueries = [1]) &&
          decide (x.1.calls = [⟨1, .done .tooExpensive⟩, ⟨7, .done .tooExpensive⟩])) = some true by
      with_unfolding_all decide)
  simp only [Bool.and_eq_true, decide_eq_true_eq] at hp
  exact ⟨w, hw, hp.1, hp.2, jailed_laws jailConfig .exact hw⟩

end Fundex
