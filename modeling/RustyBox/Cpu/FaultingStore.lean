-- SUMMARY: Which faulting stores leave memory alone.
import RustyBox.Cpu.Mediation
import RustyBox.Cpu.SystemAccess

/-!
# Faulting stores

A store that faults should have written nothing: only the accessed and dirty bits of its
page walks may have changed. That holds for every store whose pages are all translated
before its first byte is written, and fails for the stores that go piece by piece once
their first piece has been translated.
-/

namespace RustyBox

open Lib

variable {m : Machine} {s s' s'' : Cpu m}

/-! ## Steps that write nothing -/

/-- Between the states nothing was accessed, and memory changed in accessed and dirty bits
only. -/
structure Cpu.NothingWritten (s s' : Cpu m) : Prop where
  log : s'.accessLog = s.accessLog
  ram : AdOnly s.ram s'.ram

theorem Cpu.NothingWritten.refl (s : Cpu m) : s.NothingWritten s := ⟨rfl, .refl _⟩

theorem Cpu.Logs.nothingWritten {vs : List MemPermViolation} (h : s.Logs s' [] vs) :
    s.NothingWritten s' :=
  ⟨h.log.trans (List.append_nil _), h.ram rfl⟩

theorem wp_translateDataAccess_nothing (s : Cpu m) (laddr : BitVec 64) (isWrite : Bool) :
    wp (translateDataAccess laddr isWrite false) s
      (fun p s' => s.NothingWritten s' ∧ m.applyA20 p = p) (fun _ s' => s.NothingWritten s') :=
  (wp_translateDataAccess s laddr isWrite).mono (fun _ _ h => ⟨h.1.nothingWritten, h.2.a20⟩)
    fun _ _ h => h.1.nothingWritten

theorem wp_translateLinearSystemWrite_nothing (s : Cpu m) (laddr : BitVec 64) :
    wp (translateLinearSystemWrite laddr) s
      (fun p s' => s.NothingWritten s' ∧ m.applyA20 p = p) (fun _ s' => s.NothingWritten s') := by
  cases hpg : s.ctl.pg with
  | false =>
    have hr : (translateLinearSystemWrite laddr).run s = .ok (m.applyA20 (s.maskLaddr laddr)) s := by
      unfold translateLinearSystemWrite
      rw [run_get_bind]
      rw [if_pos (by simp [hpg])]
      rfl
    exact .of_ok hr ⟨.refl s, applyA20_applyA20 _⟩
  | true =>
    cases hq : s.systemPath true (s.maskLaddr laddr) with
    | error fault => exact .of_error (systemWrite_run_error hpg hq) ⟨rfl, .refl _⟩
    | ok q =>
      refine .of_ok (systemWrite_run_ok hpg hq) ⟨?_, applyA20_applyA20 _⟩
      obtain ⟨log, heq⟩ := setAd_eq s fun u hu => (systemUpdates_spec hq hu).1
      rw [heq]
      exact ⟨rfl, adOnly_setAd fun u hu => systemUpdates_spec hq hu⟩

variable {n w : Nat}

/-! ## Stores that go piece by piece -/

/-- The log never shrinks. -/
def logGrows (m : Machine) : Frame (Cpu m) where
  rel s s' := s.accessLog.length ≤ s'.accessLog.length
  refl _ := le_refl _
  trans h h' := h.trans h'

theorem memWriteByte_grows (s : Cpu m) {addr : BitVec 64} (h : m.applyA20 addr = addr)
    (v : BitVec 8) : s.accessLog.length < (s.memWriteByte .data addr v).accessLog.length := by
  obtain ⟨new, hlogs, hspans, -⟩ := touches_memWriteByte s h v
  obtain ⟨e, he, -⟩ := hspans.exists_first (by decide)
  rw [hlogs.log, List.length_append]
  have := List.length_pos_of_mem he
  omega

variable {f : Fault}

/-- A piece and what comes after it: a failure of the piece leaves nothing written, a later
one leaves the piece written. -/
theorem piecewise_failure {translate : CpuM m (BitVec 64)} {rest : CpuM m PUnit} {v : BitVec 8}
    (htranslate : wp translate s (fun p s' => s.NothingWritten s' ∧ m.applyA20 p = p)
      fun _ s' => s.NothingWritten s') (hrest : (logGrows m).Holds rest)
    (hrun : (translate >>= fun p =>
      (modify fun s => s.memWriteByte .data p v) >>= fun _ => rest).run s = .error f s') :
    s.NothingWritten s' ↔ ¬ succeeded (translate.run s) := by
  rcases run_bind_error.mp hrun with herr | ⟨p, s₁, hok, hlater⟩
  · refine iff_of_true (htranslate.error herr) ?_
    rw [herr]
    exact nofun
  · obtain ⟨hsame, ha20⟩ := htranslate.ok hok
    refine iff_of_false (fun h => ?_) ?_
    · rw [run_modify_bind] at hlater
      have hgrow := memWriteByte_grows s₁ ha20 v
      have hlen : _ ≤ _ := hrest.error hlater
      rw [h.log, ← hsame.log] at hlen
      omega
    · rw [hok]
      exact fun h => h rfl

/-- A computation that writes nothing in any case does not shrink the log. -/
theorem grows_of_nothing {α : Type} {x : CpuM m α} {P : α → Prop}
    (h : ∀ s, wp x s (fun a s' => s.NothingWritten s' ∧ P a) fun _ s' => s.NothingWritten s') :
    (logGrows m).Holds x := by
  intro s
  cases hr : x.run s with
  | ok a s' => exact le_of_eq (congrArg List.length ((h s).ok hr).1.log.symm)
  | error f s' => exact le_of_eq (congrArg List.length ((h s).error hr).log.symm)

theorem memWriteByte_le (p : BitVec 64) (v : BitVec 8) (s : Cpu m) :
    (logGrows m).rel s (s.memWriteByte .data p v) := by
  have hnote (s : Cpu m) (target : Target) (paddr : BitVec 64) :
      s.accessLog.length ≤ (s.note target true paddr 1).accessLog.length := by
    simp [Cpu.note]
  unfold Cpu.memWriteByte
  cases m.directRamOffset p 1 with
  | some off => exact hnote { s with ram := _ } _ _
  | none => exact hnote { s with deviceLog := _ } _ _

theorem writeBytewiseFrom_grows (laddr : BitVec 64) (val : BitVec w) (i n : Nat) :
    (logGrows m).Holds (writeBytewiseFrom laddr val i n) := by
  induction n generalizing i with
  | zero => exact .pure _
  | succ n ih =>
    exact .bind (grows_of_nothing fun s => wp_translateDataAccess_nothing s _ true) fun p =>
      .bind (.modify (memWriteByte_le p _)) fun _ => ih (i + 1)

theorem systemWriteByte_grows (laddr : BitVec 64) (data : BitVec 8) :
    (logGrows m).Holds (systemWriteByte laddr data) :=
  .bind (grows_of_nothing fun s => wp_translateLinearSystemWrite_nothing s laddr) fun p =>
    .modify (memWriteByte_le p data)

theorem systemWriteBytewiseFrom_grows (laddr : BitVec 64) (data : BitVec w) (i n : Nat) :
    (logGrows m).Holds (systemWriteBytewiseFrom laddr data i n) := by
  induction n generalizing i with
  | zero => exact .pure _
  | succ n ih => exact .bind .get fun s => .bind (systemWriteByte_grows _ _) fun _ => ih (i + 1)

/-! ## Stores -/

/-- A store, by the guest or by the processor on its own account. -/
inductive Store
  | linear (width : AccessWidth) (laddr val : BitVec 64)
  | system (width : AccessWidth) (laddr val : BitVec 64)

def systemWrite (width : AccessWidth) (laddr val : BitVec 64) : CpuM m PUnit :=
  match width with
  | .byte => systemWriteByte laddr (val.setWidth 8)
  | .word => systemWriteWord laddr (val.setWidth 16)
  | .dword => systemWriteDword laddr (val.setWidth 32)
  | .qword => systemWriteQword laddr val

namespace Store

def exec : Store → CpuM m PUnit
  | .linear width laddr val => writeLinear width laddr val
  | .system width laddr val => systemWrite width laddr val

/-- The store crosses a page and writes some bytes before it has translated the rest. -/
def Piecewise : Store → Prop
  | .linear width laddr _ => (width = .dword ∨ width = .qword) ∧ ¬ InPage laddr width.bytes
  | .system width laddr _ => ¬ InPage laddr width.bytes

/-- The alignment check of a linear store and the translation of its first byte. -/
def firstStep : Store → CpuM m (BitVec 64)
  | .linear width laddr _ => do
    checkAlignment laddr (BitVec.ofNat 32 (width.bytes - 1))
    translateDataWrite laddr
  | .system _ laddr _ => translateLinearSystemWrite laddr

end Store

variable {laddr : BitVec 64}

/-- A linear store of more than a word that crosses a page. -/
theorem wide_failure (hn : n + 1 ≤ 8) {val : BitVec (8 * (n + 1))} {acMask : BitVec 32}
    {onePage : CpuM m PUnit} (hpage : ¬ InPage laddr (n + 1))
    (hrun : (checkAlignment laddr acMask >>= fun _ => writeHostOr (n + 1) laddr val <|
      if InPage laddr (n + 1) then onePage else writeBytewiseFrom laddr val 0 (n + 1)).run s =
        .error f s') :
    s.NothingWritten s' ↔
      ¬ succeeded ((checkAlignment laddr acMask >>= fun _ => translateDataWrite laddr).run s) := by
  rcases run_bind_error.mp hrun with herr | ⟨_, s₁, hok, hlater⟩
  · have hsame : s' = s := ((wp_checkAlignment s laddr acMask).error herr).1
    refine iff_of_true (hsame ▸ .refl s) ?_
    rw [run_bind_of_error herr]
    exact nofun
  · obtain rfl : s₁ = s := (wp_checkAlignment s laddr acMask).ok hok
    have hmiss : s₁.hostHit laddr (n + 1) true = none := by
      rw [Option.eq_none_iff_forall_ne_some]
      exact fun hit hhit => hpage (hostHit_spec (by omega) hn hhit).inPage
    unfold writeHostOr at hlater
    rw [run_get_bind, hmiss] at hlater
    rw [if_neg hpage] at hlater
    rw [run_bind_of_ok hok]
    have hfirst := wp_translateDataAccess_nothing s₁ (laddr + BitVec.ofNat 64 0) true
    have hiff := piecewise_failure hfirst (writeBytewiseFrom_grows laddr val 1 n) hlater
    rwa [BitVec.add_zero] at hiff

theorem maskLaddr_maskLaddr (s : Cpu m) (laddr : BitVec 64) :
    s.maskLaddr (s.maskLaddr laddr) = s.maskLaddr laddr := by
  unfold Cpu.maskLaddr
  split
  · rfl
  · rw [BitVec.and_assoc, BitVec.and_self]

/-- The system stores that go byte by byte. -/
theorem systemBytewise_failure {data : BitVec w}
    (hrun : (systemWriteBytewiseFrom laddr data 0 (n + 1)).run s = .error f s') :
    s.NothingWritten s' ↔ ¬ succeeded ((translateLinearSystemWrite laddr).run s) := by
  have hmask : (translateLinearSystemWrite (s.maskLaddr (laddr + BitVec.ofNat 64 0))).run s =
      (translateLinearSystemWrite laddr).run s := by
    unfold translateLinearSystemWrite
    rw [run_get_bind, run_get_bind, BitVec.add_zero, maskLaddr_maskLaddr]
  unfold systemWriteBytewiseFrom systemWriteByte at hrun
  rw [run_get_bind, bind_assoc] at hrun
  rw [← hmask]
  exact piecewise_failure (wp_translateLinearSystemWrite_nothing s _)
    (systemWriteBytewiseFrom_grows laddr data 1 n) hrun

theorem linear_failure {width : AccessWidth} {val : BitVec 64}
    (hrun : (writeLinear width laddr val).run s = .error f s') :
    s.NothingWritten s' ↔ ¬ (Store.linear width laddr val).Piecewise ∨
      ¬ succeeded ((Store.linear width laddr val).firstStep.run s) := by
  by_cases hpieces : (Store.linear width laddr val).Piecewise
  · rw [or_iff_right (not_not_intro hpieces)]
    obtain ⟨hwide, hpage⟩ := hpieces
    rcases hwide with rfl | rfl
    · exact wide_failure (n := 3) (by decide) hpage hrun
    · exact wide_failure (n := 7) (by decide) hpage hrun
  · have hchecked : (GuestAccess.write width laddr val).Checked := by
      cases width with
      | byte => exact .inr (.one laddr)
      | word => exact .inl rfl
      | dword => exact .inr (by_contra fun hpage => hpieces ⟨.inl rfl, hpage⟩)
      | qword => exact .inr (by_contra fun hpage => hpieces ⟨.inr rfl, hpage⟩)
    obtain ⟨new, vs, hlogs, hfailed⟩ := ((GuestAccess.wp_write s width laddr val).error hrun).failed
    rw [hfailed.nothing hchecked] at hlogs
    exact iff_of_true hlogs.nothingWritten (.inl hpieces)

/-- A system store within one page only fails in its translation. -/
theorem systemOnePage_nothing {write : BitVec 64 → Cpu m → Cpu m}
    (hrun : (translateLinearSystemWrite laddr >>= fun p => modify (write p)).run s = .error f s') :
    s.NothingWritten s' :=
  ((wp_translateLinearSystemWrite_nothing s laddr).bind (R := fun _ _ => True)
    (fun _ _ _ => .modify trivial)).error hrun

theorem systemWriteWord_failure {data : BitVec 16}
    (hrun : (systemWriteWord laddr data).run s = .error f s') :
    s.NothingWritten s' ↔
      InPage laddr 2 ∨ ¬ succeeded ((translateLinearSystemWrite laddr).run s) := by
  unfold systemWriteWord at hrun
  rw [run_get_bind] at hrun
  by_cases hpage : InPage laddr 2
  · rw [if_pos hpage] at hrun
    exact iff_of_true (systemOnePage_nothing hrun) (.inl hpage)
  · rw [if_neg hpage] at hrun
    unfold systemWriteByte at hrun
    rw [bind_assoc] at hrun
    rw [or_iff_right hpage]
    exact piecewise_failure (wp_translateLinearSystemWrite_nothing s laddr)
      (systemWriteByte_grows _ _) hrun

/-- `system_write_dword` and `system_write_qword`. -/
theorem systemWide_failure {data : BitVec w} {write : BitVec 64 → Cpu m → Cpu m}
    (hrun : (if InPage laddr (n + 1) then translateLinearSystemWrite laddr >>= fun p =>
      modify (write p) else systemWriteBytewiseFrom laddr data 0 (n + 1)).run s = .error f s') :
    s.NothingWritten s' ↔
      InPage laddr (n + 1) ∨ ¬ succeeded ((translateLinearSystemWrite laddr).run s) := by
  by_cases hpage : InPage laddr (n + 1)
  · rw [if_pos hpage] at hrun
    exact iff_of_true (systemOnePage_nothing hrun) (.inl hpage)
  · rw [if_neg hpage] at hrun
    rw [or_iff_right hpage]
    exact systemBytewise_failure hrun

theorem system_failure {width : AccessWidth} {val : BitVec 64}
    (hrun : (systemWrite width laddr val).run s = .error f s') :
    s.NothingWritten s' ↔ ¬ (Store.system width laddr val).Piecewise ∨
      ¬ succeeded ((Store.system width laddr val).firstStep.run s) := by
  have hwhole : ¬ (Store.system width laddr val).Piecewise ↔ InPage laddr width.bytes := not_not
  rw [hwhole]
  cases width with
  | byte => exact iff_of_true (systemOnePage_nothing hrun) (.inl (.one laddr))
  | word => exact systemWriteWord_failure hrun
  | dword => exact systemWide_failure (n := 3) hrun
  | qword => exact systemWide_failure (n := 7) hrun

/-- A store that raises has written nothing exactly when it is not one that goes piece by
piece, or raised at its first piece. -/
theorem faulting_store_writes_nothing_iff {st : Store} {f : Fault}
    (hrun : st.exec.run s = .error f s') :
    s.NothingWritten s' ↔ ¬ st.Piecewise ∨ ¬ succeeded (st.firstStep.run s) := by
  cases st with
  | linear width laddr val => exact linear_failure hrun
  | system width laddr val => exact system_failure hrun

/-- Page 0 is mapped and the page after it is not. -/
theorem unmapped_store_writes_nothing :
    (onePageCpu 7#32).NothingWritten
      (finalState ((Store.linear .dword 0x1000#64 0x12345678#64).exec.run (onePageCpu 7#32))) := by
  have hfails : ∃ f, (Store.linear .dword 0x1000#64 0x12345678#64).exec.run (onePageCpu 7#32) =
      .error f (finalState
        ((Store.linear .dword 0x1000#64 0x12345678#64).exec.run (onePageCpu 7#32))) :=
    eq_error_of_not_succeeded (by decide +kernel)
  obtain ⟨f, hrun⟩ := hfails
  exact (faulting_store_writes_nothing_iff hrun).mpr (.inl fun h => h.2 (by decide +kernel))

/-- A dword at `0xFFE` crosses into the unmapped page: it raises, with two bytes written. -/
theorem crossing_store_half_written :
    ∃ f s', (Store.linear .dword 0xFFE#64 0x12345678#64).exec.run (onePageCpu 7#32) = .error f s' ∧
      s'.ram 0x3FFE = 0x78#8 ∧ (onePageCpu 7#32).ram 0x3FFE = 0#8 ∧
      ¬ (onePageCpu 7#32).NothingWritten s' := by
  obtain ⟨f, hrun⟩ := eq_error_of_not_succeeded
    (r := (Store.linear .dword 0xFFE#64 0x12345678#64).exec.run (onePageCpu 7#32))
    (by decide +kernel)
  refine ⟨f, _, hrun, by decide +kernel, by decide +kernel, fun h => ?_⟩
  exact absurd h.log (by decide +kernel)

end RustyBox
