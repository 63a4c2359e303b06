-- SUMMARY: Where an instruction may end without a panic of the trace loop or of the exit from long mode.
import RustyBox.Cpu.ControlLegal
import RustyBox.Cpu.Fetch
import RustyBox.Lib.ExceptRules

/-!
# Instruction placement

RIP at the entry of a handler. A trace starts at a RIP the fetch checks accept: outside
64-bit mode it is at most the CS limit, so only 64-bit code can reach the end of u64. The
loop advances RIP past the instruction before its handler runs and does not cut it to 32
bits, so the handler of an instruction that ends at 4 GiB finds a non-zero upper half.
-/

namespace RustyBox

open Lib

/-! ## Traces -/

variable {real : Bool} {rip : BitVec 64}

theorem advanceRip_error {n : Ilen} {e : LoopStop} (h : advanceRip real rip n = .error e) :
    e = .ripOverflow ∧ 2 ^ 64 ≤ rip.toNat + n.val := by
  unfold advanceRip at h
  split at h
  · next hnone =>
    rw [checkedAdd_eq_none, BitVec.toNat_ofNat, Nat.mod_eq_of_lt (by omega)] at hnone
    exact ⟨(Except.error.inj h).symm, hnone⟩
  · cases h

theorem advanceRip_ok {rip' : BitVec 64} {n : Ilen} (h : advanceRip real rip n = .ok rip') :
    rip'.toNat ≤ rip.toNat + n.val ∧ (real = false → rip'.toNat = rip.toNat + n.val) := by
  unfold advanceRip at h
  split at h
  · cases h
  · next advanced hsome =>
    rw [checkedAdd_eq_some, BitVec.toNat_ofNat, Nat.mod_eq_of_lt (by omega)] at hsome
    cases h
    cases real with
    | false => simp [hsome]
    | true =>
      exact ⟨Nat.and_le_left.trans hsome.le, nofun⟩

/-- RIP grows by the bytes of the instructions; in real mode by no more than that. -/
theorem advanceAll_ok {ns : List Ilen} {rip' : BitVec 64} (h : advanceAll real ns rip = .ok rip') :
    rip'.toNat ≤ rip.toNat + (ns.map (·.val)).sum ∧
      (real = false → rip'.toNat = rip.toNat + (ns.map (·.val)).sum) := by
  induction ns generalizing rip with
  | nil =>
    cases h
    simp
  | cons n ns ih =>
    rw [advanceAll] at h
    cases hn : advanceRip real rip n with
    | error e =>
      rw [hn] at h
      cases h
    | ok rip₁ =>
      rw [hn] at h
      have h₁ := advanceRip_ok hn
      have h₂ := ih h
      simp only [List.map_cons, List.sum_cons]
      exact ⟨by omega, fun hreal => by
        have := h₁.2 hreal
        have := h₂.2 hreal
        omega⟩

/-- The loop stops only when an instruction ends beyond u64. -/
theorem advanceAll_error {ns : List Ilen} {e : LoopStop} (h : advanceAll real ns rip = .error e) :
    e = .ripOverflow ∧ 2 ^ 64 ≤ rip.toNat + (ns.map (·.val)).sum := by
  induction ns generalizing rip with
  | nil => cases h
  | cons n ns ih =>
    rw [advanceAll] at h
    simp only [List.map_cons, List.sum_cons]
    cases hn : advanceRip real rip n with
    | error e' =>
      rw [hn] at h
      cases h
      have h₁ := advanceRip_error hn
      exact ⟨h₁.1, by omega⟩
    | ok rip₁ =>
      rw [hn] at h
      have h₁ := advanceRip_ok hn
      have h₂ := ih h
      exact ⟨h₂.1, by omega⟩

theorem sum_lens_le (ns : List Ilen) : (ns.map (·.val)).sum ≤ 15 * ns.length := by
  induction ns with
  | nil => simp
  | cons n ns ih =>
    simp only [List.map_cons, List.sum_cons, List.length_cons]
    omega

theorem Trace.bytes_le (t : Trace) : t.bytes ≤ 480 := by
  have hsum := sum_lens_le t.lens
  have hshort : t.lens.length ≤ 32 := t.short
  unfold Trace.bytes
  omega

namespace FetchState

variable {mapped : BitVec 64 → Bool} {s s' s₁ : FetchState} {t : Trace}

/-! ## Windows -/

/-- The window is the one opened at page offset `offset` for `CS:eip`. -/
structure WindowAt (s : FetchState) (eip : BitVec 32) (offset : BitVec 64) : Prop where
  within : eip.toNat ≤ s.csLimit.toNat
  offset_lt : offset.toNat < 4096
  bias_eq : s.eipPageBias = offset - eip.setWidth 64
  size_eq : s.eipPageWindowSize.toNat = min 4096 (offset.toNat + (s.csLimit.toNat - eip.toNat) + 1)

/-- What the window says about RIP: in 64-bit mode it is a whole page; otherwise it does not
reach past the CS limit, and RIP has left 32 bits by the length of a trace at most. -/
def Coherent (s : FetchState) : Prop :=
  s.eipPageWindowSize = 0 ∨
    (s.long64Mode ∧ s.eipPageWindowSize = 4096#32 ∧ s.eipPageBias.toNat % 4096 = 0) ∨
    (¬ s.long64Mode ∧ s.rip.toNat < 2 ^ 33 ∧ ∃ eip offset, s.WindowAt eip offset)

/-- A state in which a trace may start. -/
structure Accepted (s : FetchState) : Prop where
  coherent : s.Coherent
  inWindow : s.inWindow
  rip_lt : ¬ s.long64Mode → s.rip.toNat < 2 ^ 32

theorem windowAt_openWindow {eip : BitVec 32} {offset : BitVec 64}
    (hwithin : eip.toNat ≤ s.csLimit.toNat) (hoffset : offset.toNat < 4096) :
    (s.openWindow eip offset).WindowAt eip offset := by
  have hsum : (s.csLimit.setWidth 64 + (offset - eip.setWidth 64) + 1#64).toNat =
      offset.toNat + (s.csLimit.toNat - eip.toNat) + 1 := by
    simp only [BitVec.toNat_add, BitVec.toNat_sub, BitVec.toNat_setWidth, BitVec.toNat_ofNat]
    omega
  refine ⟨hwithin, hoffset, rfl, ?_⟩
  unfold openWindow
  dsimp only
  split
  case isTrue hlt =>
    rw [BitVec.lt_def, BitVec.toNat_ofNat] at hlt
    rw [BitVec.toNat_setWidth]
    omega
  case isFalse hge =>
    rw [BitVec.lt_def, BitVec.toNat_ofNat] at hge
    rw [BitVec.toNat_ofNat]
    omega

/-- A RIP found in the window is within the CS limit. -/
theorem WindowAt.rip_le {eip : BitVec 32} {offset : BitVec 64} (h : s.WindowAt eip offset)
    (hrip : s.rip.toNat < 2 ^ 33) (hin : s.inWindow) : s.rip.toNat ≤ s.csLimit.toNat := by
  have hoffset := h.offset_lt
  have hsize := h.size_eq
  have hwithin := h.within
  have hbiased : s.eipBiased.toNat < s.eipPageWindowSize.toNat := by
    have := of_decide_eq_true hin
    exact this.2
  rw [eipBiased, h.bias_eq, BitVec.toNat_add, BitVec.toNat_sub, BitVec.toNat_setWidth] at hbiased
  omega

theorem Coherent.window (h : s.Coherent) (hin : s.inWindow) :
    (s.long64Mode ∧ s.eipPageWindowSize = 4096#32 ∧ s.eipPageBias.toNat % 4096 = 0) ∨
      (¬ s.long64Mode ∧ s.rip.toNat < 2 ^ 33 ∧ ∃ eip offset, s.WindowAt eip offset) := by
  have hne : s.eipPageWindowSize ≠ 0 := (of_decide_eq_true hin).1
  exact h.resolve_left hne

theorem accepted_prefetch64 (hmode : s.long64Mode) (h : s.prefetch64 mapped = .ok s') :
    s'.Accepted ∧ s'.cpuMode = s.cpuMode := by
  unfold prefetch64 at h
  split at h
  · cases h
  split at h
  · cases h
  cases h
  have hoffset : (s.rip &&& 0xFFF#64).toNat = s.rip.toNat % 4096 := by
    exact Nat.and_two_pow_sub_one_eq_mod _ 12
  refine ⟨⟨.inr (.inl ⟨hmode, rfl, ?_⟩), ?_, fun hn => absurd hmode hn⟩, rfl⟩
  · simp only [BitVec.toNat_sub]
    omega
  · simp only [inWindow, eipBiased, decide_eq_true_eq, BitVec.toNat_add, BitVec.toNat_sub,
      BitVec.toNat_ofNat]
    exact ⟨by decide, by omega⟩

theorem accepted_prefetch32 (hmode : ¬ s.long64Mode) (h : s.prefetch32 mapped = .ok s') :
    s'.Accepted ∧ s'.cpuMode = s.cpuMode := by
  unfold prefetch32 at h
  split at h
  · cases h
  split at h
  · cases h
  next sum hsum =>
  dsimp only at h
  split at h
  · cases h
  next hlimit =>
  split at h
  · cases h
  cases h
  set offset := sum &&& 0xFFFFFFFF#64 &&& 0xFFF#64 with hoffset
  have hlt : offset.toNat < 4096 := by
    exact Nat.lt_of_le_of_lt Nat.and_le_right (by decide)
  have hwithin : s.fetchEip.toNat ≤ s.csLimit.toNat := by
    rw [BitVec.lt_def] at hlimit
    omega
  have hwindow := windowAt_openWindow (s := s) hwithin hlt
  have hrip : (s.openWindow s.fetchEip offset).rip.toNat = s.fetchEip.toNat := by
    show (s.fetchEip.setWidth 64).toNat = _
    rw [BitVec.toNat_setWidth]
    omega
  refine ⟨⟨.inr (.inr ⟨hmode, by omega, _, _, hwindow⟩), ?_, fun _ => by omega⟩, rfl⟩
  -- RIP is at `offset` in the window, which reaches at least to the next byte
  have hpos : offset.toNat < (s.openWindow s.fetchEip offset).eipPageWindowSize.toNat := by
    rw [hwindow.size_eq]
    omega
  have hbiased : (s.openWindow s.fetchEip offset).eipBiased.toNat = offset.toNat := by
    rw [eipBiased, hwindow.bias_eq, BitVec.toNat_add, BitVec.toNat_sub, BitVec.toNat_setWidth]
    omega
  rw [inWindow, decide_eq_true_eq, hbiased]
  refine ⟨fun h0 => ?_, hpos⟩
  rw [h0] at hpos
  exact absurd hpos (Nat.not_lt_zero _)

theorem accepted_prefetch (h : s.prefetch mapped = .ok s') :
    s'.Accepted ∧ s'.cpuMode = s.cpuMode := by
  unfold prefetch at h
  split at h
  · next hmode => exact accepted_prefetch64 hmode h
  · next hmode => exact accepted_prefetch32 hmode h

theorem accepted_getIcacheEntry (hc : s.Coherent) (h : s.getIcacheEntry mapped = .ok s') :
    s'.Accepted ∧ s'.cpuMode = s.cpuMode := by
  unfold getIcacheEntry at h
  split at h
  · next hin =>
    cases h
    refine ⟨⟨hc, hin, fun hmode => ?_⟩, rfl⟩
    obtain ⟨h64, -⟩ | ⟨-, hrip, eip, offset, hwindow⟩ := hc.window hin
    · exact absurd h64 hmode
    · have hle := hwindow.rip_le hrip hin
      omega
  · exact accepted_prefetch h

theorem Coherent.setRip (h : s.Coherent) {rip : BitVec 64}
    (hrip : ¬ s.long64Mode → rip.toNat < 2 ^ 33) : { s with rip := rip }.Coherent := by
  obtain h0 | h64 | ⟨hmode, -, eip, offset, hw⟩ := h
  · exact .inl h0
  · exact .inr (.inl h64)
  · exact .inr (.inr ⟨hmode, hrip hmode, eip, offset,
      ⟨hw.within, hw.offset_lt, hw.bias_eq, hw.size_eq⟩⟩)

/-! ## Boundary fetches -/

section

variable (ha : s.Accepted)
include ha

/-- The bytes from RIP to the end of the window. -/
theorem Accepted.remaining :
    (s.eipPageWindowSize.setWidth 64 - s.eipBiased).toNat =
      s.eipPageWindowSize.toNat - s.eipBiased.toNat := by
  have hin := (of_decide_eq_true ha.inWindow).2
  rw [BitVec.toNat_sub, BitVec.toNat_setWidth]
  omega

theorem Accepted.size_le : s.eipPageWindowSize.toNat ≤ 4096 := by
  obtain ⟨-, hsize, -⟩ | ⟨-, -, eip, offset, hw⟩ := ha.coherent.window ha.inWindow
  · rw [hsize]
    decide
  · rw [hw.size_eq]
    omega

theorem boundaryFetch_ok (h : s.boundaryFetch mapped = .ok s') :
    s'.Coherent ∧ s'.cpuMode = s.cpuMode ∧ s'.rip = s.rip := by
  unfold boundaryFetch at h
  dsimp only at h
  split at h
  · cases h
  next split _ =>
  obtain ⟨s'', hp, h⟩ := bind_eq_ok.mp h
  cases h
  obtain ⟨ha'', hmode⟩ := accepted_prefetch hp
  refine ⟨ha''.coherent.setRip fun hn => ?_, hmode, rfl⟩
  have hlong : s''.long64Mode = s.long64Mode := by rw [long64Mode, hmode, long64Mode]
  have hrip := ha.rip_lt (hlong ▸ hn)
  omega

omit ha in
theorem prefetch_ne_ripOverflow : s.prefetch mapped ≠ .error .ripOverflow := by
  unfold prefetch prefetch64 prefetch32
  dsimp only
  repeat' split
  all_goals nofun

/-- The boundary fetch overflows exactly when the next page is beyond u64. -/
theorem boundaryFetch_ripOverflow_iff :
    s.boundaryFetch mapped = .error .ripOverflow ↔
      2 ^ 64 ≤ s.rip.toNat + (s.eipPageWindowSize.toNat - s.eipBiased.toNat) := by
  rw [← ha.remaining, ← checkedAdd_eq_none]
  unfold boundaryFetch
  dsimp only
  split
  · next hnone => exact iff_of_true rfl hnone
  · next split hsome =>
    refine iff_of_false (fun h => ?_) (by rw [hsome]; nofun)
    obtain hp | ⟨s'', -, h⟩ := bind_eq_error.mp h
    · exact prefetch_ne_ripOverflow hp
    · cases h

/-! ## Whole traces -/

theorem fetchTrace_ok (h : s.fetchTrace mapped t = .ok s') :
    s'.Coherent ∧ s'.cpuMode = s.cpuMode ∧ s'.rip = s.rip := by
  unfold fetchTrace at h
  split at h
  · exact boundaryFetch_ok ha h
  · cases h
    exact ⟨ha.coherent, rfl, rfl⟩

theorem runFetched_ok (h : s.runFetched mapped t = .ok s') :
    s'.Coherent ∧ s'.cpuMode = s.cpuMode ∧ s'.rip.toNat ≤ s.rip.toNat + t.bytes ∧
      (¬ s.realMode → s'.rip.toNat = s.rip.toNat + t.bytes) := by
  have hbytes := t.bytes_le
  obtain ⟨s₂, hfetch, h⟩ := bind_eq_ok.mp h
  obtain ⟨hc, hmode, hrip⟩ := fetchTrace_ok ha hfetch
  obtain ⟨rip, hadv, h⟩ := bind_eq_ok.mp h
  cases h
  obtain ⟨hle, heq⟩ := advanceAll_ok hadv
  rw [hrip] at hle heq
  refine ⟨hc.setRip fun hn => ?_, hmode, hle, fun hn => heq ?_⟩
  · have hlong : s₂.long64Mode = s.long64Mode := by rw [long64Mode, hmode, long64Mode]
    have hlt := ha.rip_lt (hlong ▸ hn)
    unfold Trace.bytes at hbytes
    omega
  · rw [realMode, hmode]
    simpa [realMode] using hn

/-- A trace overflows exactly when it runs to the end of the 64-bit address space. -/
theorem runFetched_ripOverflow_iff :
    s.runFetched mapped t = .error .ripOverflow ↔
      s.long64Mode ∧ 2 ^ 64 ≤ s.rip.toNat + t.bytes := by
  have hbytes := t.bytes_le
  constructor
  · intro h
    have hover : 2 ^ 64 ≤ s.rip.toNat + t.bytes := by
      obtain hfetch | ⟨s₂, hfetch, h⟩ := bind_eq_error.mp h
      · -- the first instruction is longer than what is left of the page
        unfold fetchTrace at hfetch
        split at hfetch
        · next hsplit =>
          have hend := (boundaryFetch_ripOverflow_iff ha).mp hfetch
          have hsize := ha.size_le
          unfold splits at hsplit
          unfold Trace.bytes
          cases hlens : t.lens with
          | nil =>
            rw [hlens] at hsplit
            cases hsplit
          | cons n ns =>
            rw [hlens] at hsplit
            have hlong := of_decide_eq_true hsplit
            simp only [List.map_cons, List.sum_cons]
            omega
        · cases hfetch
      · obtain ⟨-, -, hrip⟩ := fetchTrace_ok ha hfetch
        obtain hadv | ⟨rip, -, h⟩ := bind_eq_error.mp h
        · exact hrip ▸ (advanceAll_error hadv).2
        · cases h
    refine ⟨?_, hover⟩
    by_contra hn
    have hlt := ha.rip_lt hn
    omega
  · rintro ⟨h64, hover⟩
    refine bind_eq_error.mpr ?_
    by_cases hsplit : s.splits t
    · -- RIP is in the last page, so the page ends where u64 does
      rw [fetchTrace, if_pos hsplit, boundaryFetch_ripOverflow_iff ha]
      obtain ⟨-, hsize, hbias⟩ | ⟨hn, -⟩ := ha.coherent.window ha.inWindow
      · have hin := (of_decide_eq_true ha.inWindow).2
        rw [hsize, eipBiased, BitVec.toNat_add, BitVec.toNat_ofNat] at hin ⊢
        omega
      · exact absurd h64 hn
    · right
      refine ⟨s, by rw [fetchTrace, if_neg hsplit], bind_eq_error.mpr (.inl ?_)⟩
      cases hadv : advanceAll s.realMode t.lens s.rip with
      | error e => rw [(advanceAll_error hadv).1]
      | ok rip =>
        have hreal : s.realMode = false := by
          have := of_decide_eq_true h64
          rw [realMode, this]
          decide
        have heq := (advanceAll_ok hadv).2 hreal
        unfold Trace.bytes at hover
        omega

end

theorem Between.coherent (h : Between mapped s) : s.Coherent := by
  induction h with
  | invalidated s h0 => exact .inl h0
  | trace t _ hrun ih =>
    obtain ⟨s₁, hlookup, hrun⟩ := bind_eq_ok.mp hrun
    exact (runFetched_ok (accepted_getIcacheEntry ih hlookup).1 hrun).1
  | near rip _ hrip ih =>
    refine ih.setRip fun hn => ?_
    have := hrip.resolve_left hn
    omega

end FetchState

/-! ## The exit from long mode -/

section Exit

variable {f : Features} {e : Surroundings} {regs : ControlRegs}

/-- The write ends in the panic of `set_cr0`. -/
def Panics (x : CrM Unit) (regs : ControlRegs) : Prop := ∃ regs', x.run regs = .error .panic regs'

theorem wp_longModeTransition_panic (pg : Bool) :
    wp (longModeTransition e pg) regs (fun _ _ => True) fun stop _ => stop = .panic →
      regs.cr0.pg ∧ pg = false ∧ e.cpuMode ≠ .long64 ∧ regs.efer.lma ∧ regs.cr4.pcide = false ∧
        e.rip >>> 32 ≠ 0 := by
  refine .get_bind (.ite (fun _ => .ite (fun _ => ?_) fun _ => .pure trivial) fun _ =>
    .ite (fun hoff => .ite (fun _ => .throw nofun) fun hmode => .ite (fun hlma => ?_) fun _ =>
      .pure trivial) fun _ => .pure trivial)
  · exact .get_bind (.ite (fun _ => .throw nofun) fun _ => .ite (fun _ => .throw nofun) fun _ =>
      .ite (fun _ => .throw nofun) fun _ => .set trivial)
  · rw [Bool.and_eq_true, Bool.not_eq_true'] at hoff
    exact .get_bind (.ite (fun _ => .throw nofun) fun hpcide => .ite
      (fun hrip => .throw fun _ => ⟨hoff.1, hoff.2, hmode, hlma, by simpa using hpcide, hrip⟩)
      fun _ => .set trivial)

theorem panics_setCr0_iff {val : BitVec 64} :
    Panics (setCr0 f e val) regs ↔ exitsLongMode e regs val ∧ e.rip >>> 32 ≠ 0 := by
  constructor
  · rintro ⟨regs', hrun⟩
    have hwp : wp (setCr0 f e val) regs (fun _ _ => True)
        fun stop _ => stop = .panic → exitsLongMode e regs val ∧ e.rip >>> 32 ≠ 0 := by
      refine .get_bind (.ite (fun _ => .throw nofun) fun hhigh => .ite (fun _ => .throw nofun)
        fun hok => ?_)
      refine (wp_longModeTransition_panic _).bind (fun _ regs' _ => ?_) fun stop _ h hpanic => ?_
      · exact .get_bind (.ite (fun _ => .throw nofun) fun _ => .set trivial)
      · obtain ⟨hpg, hnew, hmode, hlma, hpcide, hrip⟩ := h hpanic
        exact ⟨exitsLongMode_iff.mpr ⟨not_not.mp hhigh, by simpa using hok, hpg, hnew, hmode, hlma,
          hpcide⟩, hrip⟩
    exact hwp.error hrun rfl
  · rintro ⟨hexits, hrip⟩
    exact ⟨regs, by rw [run_setCr0_of_exits hexits, if_neg hrip]⟩

theorem panics_movCr0_iff {val : BitVec 64} :
    Panics (movCr0 f e val) regs ↔ e.cpl = 0 ∧ exitsLongMode e regs val ∧ e.rip >>> 32 ≠ 0 := by
  by_cases hcpl : e.cpl = 0
  · have hcheck : (checkCpl0 e).run regs = .ok () regs := by
      rw [checkCpl0, if_neg (not_not.mpr hcpl)]
      rfl
    rw [Panics, movCr0, run_bind_of_ok hcheck, ← Panics, panics_setCr0_iff]
    exact (and_iff_right hcpl).symm
  · have hcheck : (checkCpl0 e).run regs = .error .gp regs := by
      rw [checkCpl0, if_pos hcpl]
      rfl
    rw [Panics, movCr0, run_bind_of_error hcheck]
    refine iff_of_false ?_ fun h => hcpl h.1
    rintro ⟨regs', h⟩
    cases h

/-- What a handler reads in a fetch state. -/
def Surroundings.within (e : Surroundings) (s : FetchState) : Surroundings :=
  { e with rip := s.rip, cpuMode := s.cpuMode }

theorem ushiftRight_32_eq_zero_iff {v : BitVec 64} : v >>> 32 = 0 ↔ v.toNat < 2 ^ 32 := by
  rw [← BitVec.toNat_inj, BitVec.toNat_ushiftRight, Nat.shiftRight_eq_div_pow]
  show v.toNat / 2 ^ 32 = 0 ↔ _
  omega

end Exit

/-! ## Placements -/

/-- From every state between traces whose RIP the fetch checks accept, and for every trace
found there: no sum of RIP overflows and a MOV to CR0 at the end of the trace does not
panic, exactly when 64-bit code does not run to the end of the address space and a MOV to
CR0 that leaves long mode does not end at 4 GiB. -/
theorem instruction_placement_panic_free_iff {mapped : BitVec 64 → Bool} {s s₁ : FetchState}
    (hs : s.Between mapped) (hlookup : s.getIcacheEntry mapped = .ok s₁) (t : Trace)
    (f : Features) (e : Surroundings) (regs : ControlRegs)
    (hmode : regs.efer.lma = s.cpuMode.longMode) (val : BitVec 64) :
    (s.runTrace mapped t ≠ .error .ripOverflow ∧
        ∀ s₂, s.runTrace mapped t = .ok s₂ → ¬ Panics (movCr0 f (e.within s₂) val) regs) ↔
      (s.cpuMode = .long64 → s₁.rip.toNat + t.bytes < 2 ^ 64) ∧
        ((s.runTrace mapped t).isOk → e.cpl = 0 → exitsLongMode (e.within s) regs val →
          s₁.rip.toNat + t.bytes < 2 ^ 32) := by
  obtain ⟨ha, hcpu⟩ := FetchState.accepted_getIcacheEntry hs.coherent hlookup
  have hrun : s.runTrace mapped t = s₁.runFetched mapped t := by
    rw [FetchState.runTrace, hlookup]
    rfl
  rw [hrun, ne_eq, FetchState.runFetched_ripOverflow_iff ha, FetchState.long64Mode,
    decide_eq_true_eq, hcpu]
  refine and_congr (by rw [not_and, not_le]) ?_
  have hexits (s₂ : FetchState) (h : s₂.cpuMode = s.cpuMode) :
      exitsLongMode (e.within s₂) regs val = exitsLongMode (e.within s) regs val := by
    unfold exitsLongMode Surroundings.within
    rw [h]
  -- outside real mode RIP has grown by all bytes of the trace
  have hrip (s₂ : FetchState) (h : s₁.runFetched mapped t = .ok s₂)
      (hx : exitsLongMode (e.within s) regs val) :
      s₂.rip.toNat = s₁.rip.toNat + t.bytes := by
    refine (FetchState.runFetched_ok ha h).2.2.2 fun hreal => ?_
    have hlma := (exitsLongMode_iff.mp hx).2.2.2.2.2.1
    rw [hmode, ← hcpu, of_decide_eq_true hreal] at hlma
    cases hlma
  constructor
  · intro h hok hcpl hx
    cases hr : s₁.runFetched mapped t with
    | error stop =>
      rw [hr] at hok
      cases hok
    | ok s₂ =>
      have hnot := h s₂ hr
      rw [panics_movCr0_iff, hexits s₂ (by rw [(FetchState.runFetched_ok ha hr).2.1, hcpu])]
        at hnot
      have hhigh : s₂.rip >>> 32 = 0 := by
        by_contra hne
        exact hnot ⟨hcpl, hx, hne⟩
      rw [ushiftRight_32_eq_zero_iff, hrip s₂ hr hx] at hhigh
      exact hhigh
  · intro h s₂ hr hpanic
    rw [panics_movCr0_iff, hexits s₂ (by rw [(FetchState.runFetched_ok ha hr).2.1, hcpu])]
      at hpanic
    obtain ⟨hcpl, hx, hne⟩ := hpanic
    have hlt := h (by rw [hr]; rfl) hcpl hx
    rw [← hrip s₂ hr hx] at hlt
    exact hne (ushiftRight_32_eq_zero_iff.mpr hlt)

/-- Code at level 0 with a flat CS and an empty window. -/
def flatFetch (mode : CpuMode) (rip : BitVec 64) : FetchState :=
  ⟨rip, mode, false, false, false, false, 0, 0xFFFFFFFF#32, 0, 0⟩

/-- One instruction. -/
def oneInstruction (n : Ilen) : Trace := ⟨[n], Nat.le_add_left 1 31⟩

/-- Paging in compatibility mode, from which a MOV of PE and ET to CR0 leaves long mode. -/
def compatRegs : ControlRegs := ⟨0x80000011#32, 0, 0x20#64, 0x500#32, false⟩

/-- A MOV to CR0 at 0x1000 in compatibility mode leaves long mode without a panic. -/
theorem low_mov_cr0_panic_free :
    (flatFetch .longCompat 0x1000#64).runTrace (fun _ => true) (oneInstruction ⟨3, by decide⟩) ≠
        .error .ripOverflow ∧
      ∀ s₂, (flatFetch .longCompat 0x1000#64).runTrace (fun _ => true)
          (oneInstruction ⟨3, by decide⟩) = .ok s₂ →
        ¬ Panics (movCr0 skylake (resetSurroundings.within s₂) 0x11#64) compatRegs :=
  (instruction_placement_panic_free_iff (.invalidated _ rfl) rfl (oneInstruction ⟨3, by decide⟩)
    skylake resetSurroundings compatRegs rfl 0x11#64).mpr
    ⟨nofun, fun _ _ _ => by decide⟩

/-- A one-byte instruction at the top of the 64-bit address space overflows RIP, and a MOV
to CR0 that ends at 4 GiB in compatibility mode panics. -/
theorem top_placements_panic :
    (flatFetch .long64 0xFFFFFFFFFFFFFFFF#64).runTrace (fun _ => true)
        (oneInstruction ⟨1, by decide⟩) = .error .ripOverflow ∧
      ∃ s₂, (flatFetch .longCompat 0xFFFFFFFD#64).runTrace (fun _ => true)
          (oneInstruction ⟨3, by decide⟩) = .ok s₂ ∧
        Panics (movCr0 skylake (resetSurroundings.within s₂) 0x11#64) compatRegs :=
  ⟨rfl, _, rfl, compatRegs, rfl⟩

end RustyBox
