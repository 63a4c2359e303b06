-- SUMMARY: Which runs of the timer wheel can always be saved.
import RustyBox.PcSystem.Snapshot

/-!
# Runs that can be saved

Saving asks more of the registered owners than `register_timer` checks, and
`unregister_timer` does not look at the fired queue. `SnapshotSafe` names the two
conditions a call must meet; a run all of whose calls meet it stays
`SnapshotReady`, and without them a reachable wheel can refuse to be saved.
-/

namespace RustyBox

open PcSystem Lib List

/-! ## What the other calls leave alone -/

/-- Every slot in use in `s'` is in use in `s`, by the same owner and under the same
name. -/
def RosterWithin (s s' : PcSystem) : Prop :=
  ∀ i, (s'.timers i).flags.inUse → (s.timers i).flags.inUse ∧
    (s'.timers i).owner = (s.timers i).owner ∧ (s'.timers i).id = (s.timers i).id

variable {s s' : PcSystem} {n : Nat}

/-- Such a wheel is as ready as before, provided its queued owners are registered. -/
theorem RosterWithin.ready (h : RosterWithin s s') (hr : SnapshotReady s)
    (hq : ∀ o ∈ s'.fired.map Prod.fst, Registered s' o) : SnapshotReady s' where
  id := fun i hi => by
    obtain ⟨hu, -, hid⟩ := h i hi
    exact hid ▸ hr.id i hu
  encodable := fun i hi => by
    obtain ⟨hu, ho, -⟩ := h i hi
    exact ho ▸ hr.encodable i hu
  not_null := fun i h0 hi => by
    obtain ⟨hu, ho, -⟩ := h i hi
    exact ho ▸ hr.not_null i h0 hu
  owner_inj := fun i j hi hj he => by
    obtain ⟨hu, ho, -⟩ := h i hi
    obtain ⟨hu', ho', -⟩ := h j hj
    exact hr.owner_inj i j hu hu' (ho ▸ ho' ▸ he)
  fired := hq

namespace SameRoster

theorem refl (s : PcSystem) : SameRoster s s := ⟨fun _ => rfl, fun _ => rfl, fun _ => rfl⟩

theorem setTimer {i : Fin maxTimers} {t : Timer} (hu : t.flags.inUse = (s.timers i).flags.inUse)
    (ho : t.owner = (s.timers i).owner) (hid : t.id = (s.timers i).id) :
    SameRoster s (s.setTimer i t) := by
  refine ⟨fun j => ?_, fun j => ?_, fun j => ?_⟩
  all_goals
    by_cases hj : j = i
    · subst hj
      simpa [PcSystem.setTimer]
    · simp [PcSystem.setTimer, hj]

theorem registered_iff (h : SameRoster s s') {o : TimerOwner} :
    Registered s' o ↔ Registered s o := by
  simp only [Registered, h.inUse, h.owner]

theorem within (h : SameRoster s s') : RosterWithin s s' := fun i hi =>
  ⟨h.inUse i ▸ hi, h.owner i, h.id i⟩

end SameRoster

/-- A call that touches neither the roster nor the fired queue. -/
def Keeps (s s' : PcSystem) : Prop := SameRoster s s' ∧ s'.fired = s.fired

namespace Keeps

variable {s s' s'' : PcSystem}

theorem refl (s : PcSystem) : Keeps s s := ⟨.refl s, rfl⟩

theorem trans (h : Keeps s s') (h' : Keeps s' s'') : Keeps s s'' := ⟨h.1.trans h'.1, h'.2.trans h.2⟩

theorem ready (h : Keeps s s') (hr : SnapshotReady s) : SnapshotReady s' :=
  h.1.within.ready hr fun o ho => h.1.registered_iff.mpr (hr.fired o (h.2 ▸ ho))

theorem shortenCountdownTo (s : PcSystem) (d : Nat) : Keeps s (s.shortenCountdownTo d) := by
  unfold PcSystem.shortenCountdownTo
  dsimp only
  split_ifs
  all_goals exact ⟨⟨fun _ => rfl, fun _ => rfl, fun _ => rfl⟩, rfl⟩

theorem arm (s : PcSystem) (i : Fin maxTimers) (d : Nat) (continuous : Bool) :
    Keeps s (s.arm i d continuous) := by
  have harmed : Keeps s (s.setTimer i { s.timers i with
      timeToFire := d
      flags := { (s.timers i).flags with active := true, continuous := continuous } }) :=
    ⟨.setTimer rfl rfl rfl, rfl⟩
  exact harmed.trans (.shortenCountdownTo _ d)

theorem setPeriod (s : PcSystem) (i : Fin maxTimers) (p : Nat) : Keeps s (s.setPeriod i p) :=
  ⟨.setTimer rfl rfl rfl, rfl⟩

theorem of_arming (ha : Arming s s') : Keeps s s' := by
  induction ha with
  | still s => exact .refl s
  | arm _ _ _ _ _ => exact .arm ..
  | setPeriod _ _ _ _ ih => exact (Keeps.setPeriod ..).trans ih

theorem deactivateTimer (s : PcSystem) (n : Nat) : Keeps s (s.deactivateTimer n).2 := by
  unfold PcSystem.deactivateTimer
  split
  · exact .refl s
  · exact ⟨.setTimer rfl rfl rfl, rfl⟩

end Keeps

/-! ## Registration -/

theorem timerId_toList (id : List UInt8) :
    (timerId id).toList = id.take 31 ++ replicate (32 - (id.take 31).length) 0 := by
  apply ext_getElem
  · have hlen : maxTimerIdLen = 32 := rfl
    simp only [Vector.length_toList, hlen, length_append, length_take, length_replicate]
    omega
  · intro j hj _
    rw [Vector.length_toList] at hj
    have hj32 : j < 32 := hj
    have hmax : maxTimerIdLen - 1 = 31 := rfl
    simp only [timerId, Vector.getElem_toList, Vector.getElem_ofFn, hmax, getElem_append,
      length_take, getElem_take, getElem_replicate]
    by_cases hlt : j < min 31 id.length
    · have hlen : j < id.length := by omega
      rw [if_pos (by omega), dif_pos hlt]
      simp [getD, hlen]
    · rw [if_neg (by omega), dif_neg hlt]

theorem nulPadded_append_zeros {l : List UInt8} (h : NulPadded l) :
    NulPadded (l ++ replicate n 0) := by
  intro b hb
  rw [dropWhile_append] at hb
  split_ifs at hb with hz
  · exact (List.mem_replicate.mp ((dropWhile_sublist _).subset hb)).2
  · rcases List.mem_append.mp hb with hb | hb
    · exact h b hb
    · exact (List.mem_replicate.mp hb).2

theorem fillSlot_ready {i : Fin maxTimers} {owner : TimerOwner} {p d : Nat} {continuous : Bool}
    {id : List UInt8} (hr : SnapshotReady s) (hfree : (s.timers i).flags.inUse = false)
    (hnull : owner ≠ .nullTimer) (henc : Encodable owner) (hnew : ¬ Registered s owner)
    (hid : NulPadded (id.take 31)) : SnapshotReady (s.fillSlot i owner p d continuous id) := by
  have hself : (s.fillSlot i owner p d continuous id).timers i =
      ⟨⟨true, false, continuous⟩, p, d, owner, timerId id⟩ := by
    simp [fillSlot, setTimer]
  have hother : ∀ j, j ≠ i → (s.fillSlot i owner p d continuous id).timers j = s.timers j := by
    intro j hj
    simp [fillSlot, setTimer, hj]
  have hdistinct : ∀ j, j ≠ i → (s.timers j).flags.inUse → (s.timers j).owner ≠ owner :=
    fun j _ hj he => hnew ⟨j, hj, he⟩
  refine ⟨fun j hj => ?_, fun j hj => ?_, fun j h0 hj => ?_, fun j k hj hk he => ?_,
    fun o ho => ?_⟩
  · by_cases hji : j = i
    · subst hji
      rw [hself, timerId_toList]
      exact nulPadded_append_zeros hid
    · rw [hother j hji] at hj ⊢
      exact hr.id j hj
  · by_cases hji : j = i
    · subst hji
      rw [hself]
      exact henc
    · rw [hother j hji] at hj ⊢
      exact hr.encodable j hj
  · by_cases hji : j = i
    · subst hji
      rw [hself]
      exact hnull
    · rw [hother j hji] at hj ⊢
      exact hr.not_null j h0 hj
  · by_cases hji : j = i
    · by_cases hki : k = i
      · rw [hji, hki]
      · rw [hji, hself, hother k hki] at he
        rw [hother k hki] at hk
        exact absurd he.symm (hdistinct k hki hk)
    · rw [hother j hji] at hj he
      by_cases hki : k = i
      · rw [hki, hself] at he
        exact absurd he (hdistinct j hji hj)
      · rw [hother k hki] at hk he
        exact hr.owner_inj j k hj hk he
  · obtain ⟨j, hj, hjo⟩ := hr.fired o ho
    have hji : j ≠ i := by
      rintro rfl
      rw [hfree] at hj
      cases hj
    exact ⟨j, by rwa [hother j hji], by rwa [hother j hji]⟩

theorem registerTimer_ready {owner : TimerOwner} {p : Nat} {continuous active : Bool}
    {id : List UInt8} (hr : SnapshotReady s) (hnull : owner ≠ .nullTimer) (henc : Encodable owner)
    (hnew : ¬ Registered s owner) (hid : NulPadded (id.take 31)) :
    SnapshotReady (s.registerTimer owner p continuous active id).2 := by
  unfold registerTimer
  dsimp only
  split
  · exact hr
  · rename_i i hfind
    have hfree : (s.timers i).flags.inUse = false := by
      have := List.find?_some hfind
      simp only [Bool.and_eq_true, Bool.not_eq_true'] at this
      exact this.2
    split
    · exact hr
    · rename_i d hd
      have hfill : SnapshotReady
          (s.fillSlot i owner (max p minAllowableTimerPeriod) d continuous id) :=
        fillSlot_ready hr hfree hnull henc hnew hid
      split
      · have hact := (Keeps.of_arming (arming_activateTimerAtTicks _ i.val continuous
          (deadlineFromNow_ok hd).2)).ready hfill
        split
        all_goals rename_i heq
        all_goals exact (congrArg (SnapshotReady ·.2) heq).mp hact
      · exact hfill

theorem unregisterTimer_ready (hr : SnapshotReady s)
    (hdrained : ∀ i : Fin maxTimers, i.val = n → (s.timers i).owner ∉ s.fired.map Prod.fst) :
    SnapshotReady (s.unregisterTimer n).2 := by
  unfold unregisterTimer
  split
  · exact hr
  · rename_i i hi
    have hin := (validateTimerIndex_ok hi).1
    split_ifs
    · exact hr
    · have hself : ((s.freeSlot i).timers i).flags.inUse = false := by
        simp [freeSlot, setTimer, TimerFlags.empty]
      have hother : ∀ j, j ≠ i → (s.freeSlot i).timers j = s.timers j := by
        intro j hj
        simp [freeSlot, setTimer, hj]
      have hwithin : RosterWithin s (s.freeSlot i) := by
        intro j hj
        have hji : j ≠ i := by
          rintro rfl
          rw [hself] at hj
          cases hj
        rw [hother j hji] at hj ⊢
        exact ⟨hj, rfl, rfl⟩
      refine hwithin.ready hr fun o ho => ?_
      obtain ⟨j, hj, hjo⟩ := hr.fired o ho
      have hji : j ≠ i := by
        rintro rfl
        exact hdrained j hin (hjo ▸ ho)
      exact ⟨j, by rwa [hother j hji], by rwa [hother j hji]⟩

/-! ## Ticks -/

theorem Ticked.ready {fires : List Fire} (h : WellFormed s) (ht : Ticked s n s' fires)
    (hr : SnapshotReady s) : SnapshotReady s' := by
  refine ht.toSameRoster.within.ready hr fun o ho => ht.toSameRoster.registered_iff.mpr ?_
  rw [ht.queue, recordFires_eq] at ho
  rcases mem_of_mem_foldl_record ho with ho | ho
  · exact hr.fired o ho
  · -- a fire comes from an active timer, which is in use
    obtain ⟨⟨x, i⟩, hf, rfl⟩ := List.mem_map.mp ho
    have hact := ((ht.fires_iff x i).mp hf).1.1
    exact ⟨i, (h.slots i).active_inUse hact, rfl⟩

theorem tickn_ready (h : WellFormed s) (hr : SnapshotReady s)
    (ht : (s.tickn n).map Prod.fst = some s') : SnapshotReady s' := by
  obtain ⟨⟨s₁, fires⟩, heq, rfl⟩ := Option.map_eq_some_iff.mp ht
  exact (tickn_ticked h heq).ready h hr

/-! ## Runs -/

/-- A registration the snapshot format can carry: a real owner with a wire form that
no timer has yet, under a name without a NUL inside. -/
structure RegistrationSafe (s : PcSystem) (owner : TimerOwner) (id : List UInt8) : Prop where
  not_null : owner ≠ .nullTimer
  encodable : Encodable owner
  fresh : ¬ Registered s owner
  name : NulPadded (id.take 31)

/-- The calls that keep a wheel saveable: safe registrations, and unregistering only
a timer whose owner has no undrained fire. -/
def SnapshotSafe (s : PcSystem) : TimerOp → Prop
  | .registerTimer owner _ _ _ id => RegistrationSafe s owner id
  | .registerTimerUsec owner _ _ _ id => RegistrationSafe s owner id
  | .unregisterTimer n =>
    ∀ i : Fin maxTimers, i.val = n → (s.timers i).owner ∉ s.fired.map Prod.fst
  | _ => True

theorem start_ready (ips : Nat) : SnapshotReady (new.initializeWith ips) := by
  have hslot : ∀ i, ((new.initializeWith ips).timers i).flags.inUse → i = slot0 := by
    intro i hi
    by_contra hne
    simp [initializeWith, setTimer, new, hne, Timer.unused, TimerFlags.empty] at hi
  have hnull : (new.initializeWith ips).timers slot0 = nullTimer := by
    simp [initializeWith, setTimer, new, nullTimer]
  refine ⟨fun i hi => ?_, fun i hi => ?_, fun i h0 hi => absurd (hslot i hi) h0,
    fun i j hi hj _ => (hslot i hi).trans (hslot j hj).symm, ?_⟩
  · rw [hslot i hi, hnull]
    unfold NulPadded
    decide +kernel
  · rw [hslot i hi, hnull]
    trivial
  · simp [initializeWith, setTimer, new]

theorem SnapshotReady.step {op : TimerOp} (h : WellFormed s) (hr : SnapshotReady s)
    (hok : SnapshotSafe s op) (hs : s.step op = some s') : SnapshotReady s' := by
  cases op with
  | registerTimer =>
    cases hs; exact registerTimer_ready hr hok.not_null hok.encodable hok.fresh hok.name
  | registerTimerUsec =>
    cases hs
    unfold registerTimerUsec
    split
    · exact hr
    · exact registerTimer_ready hr hok.not_null hok.encodable hok.fresh hok.name
  | deactivateTimer => cases hs; exact (Keeps.deactivateTimer _ _).ready hr
  | unregisterTimer => cases hs; exact unregisterTimer_ready hr hok
  | tickn => exact tickn_ready h hr hs
  | tick1 => exact tickn_ready (n := 1) h hr (by rw [← h.tick1_eq]; exact hs)
  | takeFiredTimers =>
    cases hs
    exact ⟨hr.id, hr.encodable, hr.not_null, hr.owner_inj, by simp [takeFiredTimers]⟩
  | _ => exact (Keeps.of_arming (arming_step (by trivial) hs)).ready hr

theorem save_of_safe {s : PcSystem} (hs : RunReaches SnapshotSafe s) :
    ∃ bytes, s.save = .ok bytes := by
  obtain ⟨ips, hrun⟩ := hs
  have hinv : (fun s => WellFormed s ∧ SnapshotReady s) s := by
    apply hrun.invariant
    · exact ⟨start_wellFormed _, start_ready _⟩
    · intro s op s' h hok hstep
      exact ⟨h.1.step hstep, h.2.step h.1 hok hstep⟩
  exact (save_iff hinv.1).mpr hinv.2

/-- A reachable wheel is saved exactly when it is ready; and every wheel of a run whose
registrations are safe and that unregisters no timer with an undrained fire is saved. -/
theorem save_reachable {s : PcSystem} (hs : s.Reachable) :
    ((∃ bytes, s.save = .ok bytes) ↔ SnapshotReady s) ∧
    (RunReaches SnapshotSafe s → ∃ bytes, s.save = .ok bytes) :=
  ⟨save_iff (RunReaches.wellFormed hs), save_of_safe⟩

/-- A fresh wheel with one active one-shot PIT timer due after five ticks. -/
def pitOneShot : PcSystem :=
  ((new.initializeWith 1000000).registerTimer .pit 5 false true []).2

theorem pitOneShot_saved : ∃ bytes, pitOneShot.save = .ok bytes := by
  have hsafe : RegistrationSafe (new.initializeWith 1000000) .pit [] := by
    refine ⟨by decide, trivial, by decide +kernel, ?_⟩
    simp [NulPadded]
  have hrun : ∀ ok : PcSystem → TimerOp → Prop,
      ok (new.initializeWith 1000000) (.registerTimer .pit 5 false true []) →
      RunReaches ok pitOneShot :=
    fun ok hok => ⟨1000000, .step .start hok rfl⟩
  exact (save_reachable (hrun _ trivial)).2 (hrun _ hsafe)

/-- A timer that fired and is unregistered before its fire is drained leaves a wheel
that cannot be saved. -/
theorem unregister_undrained_refuses : ∃ s : PcSystem, s.Reachable ∧
    s.save = .error (.invalid "fired timer owner does not map to a registered timer") := by
  have hfire : (pitOneShot.tickn 5).isSome := by decide +kernel
  obtain ⟨⟨s₁, fires⟩, ht⟩ := Option.isSome_iff_exists.mp hfire
  refine ⟨(s₁.unregisterTimer 1).2, ⟨1000000, ?_⟩, ?_⟩
  · refine .step (a := .unregisterTimer 1) (.step (a := .tickn 5) (.step
      (a := .registerTimer .pit 5 false true []) .start trivial rfl) trivial ?_) trivial rfl
    change (pitOneShot.tickn 5).map Prod.fst = some s₁
    rw [ht]
    rfl
  · have hsave : (pitOneShot.tickn 5).map (fun r => (r.1.unregisterTimer 1).2.save) =
        some (.error (.invalid "fired timer owner does not map to a registered timer")) := by
      decide +kernel
    rw [ht] at hsave
    exact Option.some.inj hsave

end RustyBox
