-- SUMMARY: The routes of reads, writes and read-modify-writes: offered to MMIO regions or not, checked or not.
import RustyBox.Cpu.AccessLog

/-!
# The routes of an access

By its route an access is offered to the registered MMIO regions or not, and checked against
the page permissions or not; `Cpu.Outcome` says what follows for the log, and one
specification per accessor says which route it takes when.
-/

namespace RustyBox

open Lib BitVec List Cpu

variable {m : Machine} {s s' s'' : Cpu m}

/-! ## Interception and clearance of an entry -/

/-- All bytes of the entry are in one registered region. -/
def DataAccess.Registered (regions : List MmioRegion) (e : DataAccess) : Prop :=
  ∃ r ∈ regions, ∀ i < e.len, r.Contains (e.paddr + BitVec.ofNat 64 i)

/-- The entry is a call of the callback of a region registered at its address. -/
def DataAccess.Intercepted (regions : List MmioRegion) (e : DataAccess) : Prop :=
  ∃ r ∈ regions, r.Contains e.paddr ∧ e.target = .mmio r.start

theorem DataAccess.Intercepted.not_plain {regions : List MmioRegion} {e : DataAccess}
    (h : e.Intercepted regions) : ¬ e.Plain := by
  obtain ⟨r, -, -, htarget⟩ := h
  exact fun hplain => hplain r.start htarget

/-- The hook let an access pass after this violation. -/
def Cpu.Suppressed (s : Cpu m) (v : MemPermViolation) : Prop :=
  ∃ hook seen, s.memPermHook = some hook ∧ hook seen v

/-- The byte at `paddr` may be accessed: its page carries the permission, or a violation that
covers the byte was suppressed. -/
def Cpu.Cleared (s : Cpu m) (vs : List MemPermViolation) (write : Bool) (paddr : BitVec 64) : Prop :=
  s.Carries paddr write ∨
    ∃ v ∈ vs, s.Suppressed v ∧ v.write = write ∧
      ∃ j < v.size, pageOffset (v.laddr + BitVec.ofNat 64 j) = pageOffset paddr

variable {n : Nat} {paddr laddr : BitVec 64} {memRead : BitVec 64 → CpuM m (BitVec (8 * n))}
  {write : Bool} {α : Type} {checked offered carried : Prop}

theorem check_add {pp : PagePermissions} {j : Nat} (hpage : InPage paddr n) (hj : j < n)
    (write : Bool) : pp.check (paddr + BitVec.ofNat 64 j) write = pp.check paddr write := by
  have hdiv : (paddr + BitVec.ofNat 64 j).toNat / 4096 = paddr.toNat / 4096 := by
    unfold InPage at hpage
    rw [toNat_pageOffset] at hpage
    rw [toNat_add, toNat_ofNat]
    omega
  unfold PagePermissions.check
  rw [hdiv]

theorem pageOffset_add {x y : BitVec 64} (h : pageOffset x = pageOffset y) (z : BitVec 64) :
    pageOffset (x + z) = pageOffset (y + z) := by
  have hnat := congrArg BitVec.toNat h
  apply eq_of_toNat_eq
  simp only [toNat_pageOffset, toNat_add] at hnat ⊢
  omega

theorem InPage.of_translates (h : Translates m laddr paddr)
    (hpage : InPage laddr n) : InPage paddr n := by
  unfold InPage at *
  rwa [h.offset]

theorem Translates.stable (h : Translates m laddr paddr)
    (hpage : InPage laddr n) : m.Stable paddr n :=
  .of_inPage (.of_translates h hpage) h.a20

/-- A check that passed clears every byte of the access. -/
theorem cleared_of_passes {j : Nat} {vs : List MemPermViolation} (htrans : Translates m laddr paddr)
    (hpage : InPage laddr n) (h : s.Passes laddr paddr n write vs) (hj : j < n) :
    s.Cleared vs write (paddr + BitVec.ofNat 64 j) := by
  cases h with
  | carries h =>
    refine .inl fun pp hpp => ?_
    rw [check_add (.of_translates htrans hpage) hj]
    exact h pp hpp
  | suppressed hook hhook h =>
    exact .inr ⟨_, mem_singleton_self _, ⟨hook, _, hhook, h⟩, rfl, j, hj,
      pageOffset_add htrans.offset.symm _⟩

theorem Cpu.Cleared.mono {vs vs' : List MemPermViolation} (h : s.Cleared vs write paddr)
    (hsub : ∀ v ∈ vs, v ∈ vs') : s.Cleared vs' write paddr := by
  rcases h with h | ⟨v, hv, h⟩
  · exact .inl h
  · exact .inr ⟨v, hsub v hv, h⟩

theorem Cpu.Logs.carries_iff {new : List DataAccess} {vs : List MemPermViolation}
    (h : s.Logs s' new vs) : s'.Carries paddr write ↔ s.Carries paddr write := by
  unfold Carries
  rw [h.perms]

/-- Every byte of the entries is on a page that carries the permission. -/
def Cpu.CarriesAll (s : Cpu m) (es : List DataAccess) : Prop :=
  ∀ e ∈ es, ∀ i < e.len, s.Carries (e.paddr + BitVec.ofNat 64 i) e.write

namespace Spans

variable {es : List DataAccess} (h : Spans write paddr n es) (hpage : InPage paddr n)
include h hpage

theorem inPage : ∀ e ∈ es, InPage e.paddr e.len := by
  intro e he
  obtain ⟨-, j, hj, hpaddr⟩ := h.mem he
  unfold InPage at *
  rw [toNat_pageOffset] at *
  rw [hpaddr, toNat_add, toNat_ofNat]
  omega

/-- On one page, the first byte decides. -/
theorem carriesAll_iff (hn : 0 < n) : s.CarriesAll es ↔ s.Carries paddr write := by
  constructor
  · intro hall
    obtain ⟨e, he, hpaddr, hlen⟩ := h.exists_first hn
    have hfirst := hall e he 0 hlen
    rwa [BitVec.add_zero, hpaddr, (h.mem he).1] at hfirst
  · intro hfirst e he i hi pp hpp
    obtain ⟨hwrite, j, hj, hpaddr⟩ := h.mem he
    rw [hpaddr, BitVec.add_assoc, ← BitVec.ofNat_add, check_add hpage (by omega), hwrite]
    exact hfirst pp hpp

end Spans

/-! ## Outcomes -/

/-- Where every entry is in a registered region, their callbacks take all of them. -/
def Cpu.Serves (s : Cpu m) (es : List DataAccess) : Prop :=
  (∀ e ∈ es, e.Registered s.mmio) → ∀ e ∈ es, e.Intercepted s.mmio

/-- What an access of these bytes logs and reports: whether it was offered to the registered
regions, and whether it was checked against the permissions. If it was not, `carried` says
whether the pages it reached carry them. -/
structure Cpu.Outcome (s : Cpu m) (bytes : Bool → Nat) (offered checked carried : Prop)
    (new : List DataAccess) (vs : List MemPermViolation) : Prop where
  bytesOf_eq : ∀ write, bytesOf write new = bytes write
  intercepted : offered → s.Serves new
  plain : ¬ offered → ∀ e ∈ new, e.Plain
  cleared : checked →
    ∀ e ∈ new, ∀ i < e.len, s.Cleared vs e.write (e.paddr + BitVec.ofNat 64 i)
  silent : ¬ checked → vs = []
  inPage : ∀ e ∈ new, InPage e.paddr e.len
  carried_iff : ¬ checked → (s.CarriesAll new ↔ carried)

namespace Cpu.Outcome

variable {bytes bytes' : Bool → Nat} {offered checked carried carried' : Prop}
  {new new' : List DataAccess} {vs vs' : List MemPermViolation}

theorem append (h : s.Outcome bytes offered checked carried new vs)
    (h' : s.Outcome bytes' offered checked carried' new' vs') :
    s.Outcome (bytes + bytes') offered checked (carried ∧ carried') (new ++ new') (vs ++ vs') where
  bytesOf_eq w := by rw [bytesOf_append, h.bytesOf_eq, h'.bytesOf_eq, Pi.add_apply]
  intercepted ho hreg := by
    rw [forall_mem_append] at hreg ⊢
    exact ⟨h.intercepted ho hreg.1, h'.intercepted ho hreg.2⟩
  plain ho := forall_mem_append.mpr ⟨h.plain ho, h'.plain ho⟩
  cleared hc := by
    rw [forall_mem_append]
    refine ⟨fun e he i hi => (h.cleared hc e he i hi).mono ?_,
      fun e he i hi => (h'.cleared hc e he i hi).mono ?_⟩
    · exact fun v hv => mem_append_left _ hv
    · exact fun v hv => mem_append_right _ hv
  silent hc := by rw [h.silent hc, h'.silent hc, append_nil]
  inPage := forall_mem_append.mpr ⟨h.inPage, h'.inPage⟩
  carried_iff hc := forall_mem_append.trans (and_congr (h.carried_iff hc) (h'.carried_iff hc))

/-- Only the regions, the permissions and the hook of the state matter. -/
theorem of_eq (h : s'.Outcome bytes offered checked carried new vs) (hmmio : s'.mmio = s.mmio)
    (hperms : s'.pagePermissions = s.pagePermissions) (hhook : s'.memPermHook = s.memPermHook) :
    s.Outcome bytes offered checked carried new vs := by
  obtain ⟨hbytes, hint, hplain, hcleared, hsilent, hin, hcarried⟩ := h
  unfold Serves at hint
  unfold CarriesAll Carries at hcarried
  unfold Cleared Suppressed Carries at hcleared
  rw [hmmio] at hint
  rw [hperms] at hcarried hcleared
  rw [hhook] at hcleared
  exact ⟨hbytes, hint, hplain, hcleared, hsilent, hin, hcarried⟩

theorem of_logs {new₀ : List DataAccess} {vs₀ : List MemPermViolation}
    (hlogs : s.Logs s' new₀ vs₀) (h : s'.Outcome bytes offered checked carried new vs) :
    s.Outcome bytes offered checked carried new vs :=
  h.of_eq hlogs.mmio hlogs.perms hlogs.hook

variable (hspans : Spans write paddr n new) (hoffered : offered → s.Serves new)
  (hplain : ¬ offered → ∀ e ∈ new, e.Plain)
include hspans hoffered hplain

/-- Accesses cleared by a check on the page they are in. -/
theorem of_spans (htrans : Translates m laddr paddr) (hpage : InPage laddr n)
    (hpass : s.Passes laddr paddr n write vs) :
    s.Outcome (only write n) offered True carried new vs where
  bytesOf_eq := hspans.bytesOf_eq
  intercepted := hoffered
  plain := hplain
  cleared _ e he i hi := by
    obtain ⟨hwrite, j, hj, hpaddr⟩ := hspans.mem he
    rw [hpaddr, BitVec.add_assoc, ← BitVec.ofNat_add, hwrite]
    exact cleared_of_passes htrans hpage hpass (by omega)
  silent hc := absurd trivial hc
  inPage := hspans.inPage (.of_translates htrans hpage)
  carried_iff hc := absurd trivial hc

/-- Accesses on one page that nothing was checked for. -/
theorem of_unchecked (hn : 0 < n) (hpage : InPage paddr n) :
    s.Outcome (only write n) offered False (s.Carries paddr write) new [] where
  bytesOf_eq := hspans.bytesOf_eq
  intercepted := hoffered
  plain := hplain
  cleared := False.elim
  silent _ := rfl
  inPage := hspans.inPage hpage
  carried_iff _ := hspans.carriesAll_iff hpage hn

end Cpu.Outcome

/-- Between the states a read or a write of `n` bytes was made. -/
def Cpu.Does (s s' : Cpu m) (write : Bool) (n : Nat) (offered checked carried : Prop) : Prop :=
  ∃ new vs, s.Logs s' new vs ∧ s.Outcome (only write n) offered checked carried new vs

namespace Cpu.Does

variable {write : Bool} {n k : Nat} {offered offered' checked checked' carried carried' : Prop}

theorem congr (h : s.Does s' write n offered checked carried) (ho : offered ↔ offered')
    (hc : checked ↔ checked') (hcarried : carried ↔ carried') :
    s.Does s' write n offered' checked' carried' := by
  rwa [← propext ho, ← propext hc, ← propext hcarried]

theorem carries_iff (h : s.Does s' write n offered checked carried) {write : Bool} :
    s'.Carries paddr write ↔ s.Carries paddr write := by
  obtain ⟨_, _, hlogs, -⟩ := h
  exact hlogs.carries_iff

theorem refl (s : Cpu m) (write : Bool) : s.Does s write 0 False False True :=
  ⟨[], [], .refl s, ⟨fun _ => (ite_self 0).symm, False.elim, fun _ => forall_mem_nil _,
    False.elim, fun _ => rfl, forall_mem_nil _, fun _ => iff_of_true (forall_mem_nil _) trivial⟩⟩

theorem trans (h : s.Does s' write n offered checked carried)
    (h' : s'.Does s'' write k offered checked carried') :
    s.Does s'' write (n + k) offered checked (carried ∧ carried') := by
  obtain ⟨new, vs, hlogs, hout⟩ := h
  obtain ⟨new', vs', hlogs', hout'⟩ := h'
  rw [Does, ← only_add]
  exact ⟨_, _, hlogs.trans hlogs', hout.append (.of_logs hlogs hout')⟩

/-- After a step that logs nothing. -/
theorem after (hlogs : s.Logs s' [] []) (h : s'.Does s'' write n offered checked carried) :
    s.Does s'' write n offered checked carried := by
  obtain ⟨new, vs, hlogs', hout⟩ := h
  exact ⟨new, vs, hlogs.silent_trans hlogs', .of_logs hlogs hout⟩

end Cpu.Does

theorem Cpu.Does.setXlation (h : s.Does s' write n offered checked carried) (x : AddressXlation) :
    { s with addressXlation := x }.Does { s' with addressXlation := x } write n offered checked
      carried := by
  obtain ⟨new, vs, hlogs, hout⟩ := h
  exact ⟨new, vs, hlogs.setXlation x, hout.of_eq rfl rfl rfl⟩

theorem Cpu.Touches.does (h : s.Touches s' write paddr n) (hn : 0 < n) (hpage : InPage paddr n) :
    s.Does s' write n False False (s.Carries paddr write) := by
  obtain ⟨new, hlogs, hspans, hplain⟩ := h
  exact ⟨new, [], hlogs, .of_unchecked hspans False.elim (fun _ => hplain) hn hpage⟩

/-- What a failed access leaves behind: after a check nothing had been accessed, and without
one nothing was reported. -/
structure Cpu.Failed (s : Cpu m) (checked carried : Prop) (new : List DataAccess)
    (vs : List MemPermViolation) : Prop where
  nothing : checked → new = []
  silent : ¬ checked → vs = []
  inPage : ∀ e ∈ new, InPage e.paddr e.len
  carried_iff : ¬ checked → (s.CarriesAll (new.filter (·.write)) ↔ carried)

/-- The exceptions of an access that no page permissions watch. -/
def MemoryFault (f : Fault) : Prop := f.vector = .pf ∨ f.vector = .ac

/-- No page permissions are installed. -/
def Unwatched (s : Cpu m) : Prop := s.pagePermissions = none

/-- Between the states an access failed with `f`. -/
structure Cpu.FailsWith (s : Cpu m) (f : Fault) (s' : Cpu m) (checked carried : Prop) : Prop where
  failed : ∃ new vs, s.Logs s' new vs ∧ s.Failed checked carried new vs
  memory : Unwatched s → MemoryFault f

namespace Cpu.FailsWith

variable {checked checked' carried carried' : Prop} {f : Fault}

theorem congr (h : s.FailsWith f s' checked carried) (hc : checked ↔ checked')
    (hcarried : carried ↔ carried') : s.FailsWith f s' checked' carried' := by
  rwa [← propext hc, ← propext hcarried]

theorem of_silent (h : s.Logs s' [] []) (hf : MemoryFault f) (hcarried : ¬ checked → carried) :
    s.FailsWith f s' checked carried :=
  ⟨⟨[], [], h, fun _ => rfl, fun _ => rfl, forall_mem_nil _,
    fun hc => iff_of_true (forall_mem_nil _) (hcarried hc)⟩, fun _ => hf⟩

/-- A translation failed. -/
theorem of_pageFault (h : s.Logs s' [] [] ∧ f.vector = .pf) (hcarried : ¬ checked → carried) :
    s.FailsWith f s' checked carried :=
  of_silent h.1 (.inl h.2) hcarried

theorem of_check (h : s.pagePermissions ≠ none ∧ ∃ vs, s.Logs s' [] vs) (hc : checked) :
    s.FailsWith f s' checked carried := by
  obtain ⟨hperms, vs, hlogs⟩ := h
  exact ⟨⟨[], vs, hlogs, fun _ => rfl, absurd hc, forall_mem_nil _, absurd hc⟩,
    fun hs => absurd hs hperms⟩

theorem after (hlogs : s.Logs s' [] []) (h : s'.FailsWith f s'' checked carried) :
    s.FailsWith f s'' checked carried := by
  obtain ⟨new, vs, hlogs', hfailed⟩ := h.failed
  refine ⟨⟨new, vs, hlogs.silent_trans hlogs', hfailed.nothing, hfailed.silent, hfailed.inPage,
    fun hc => ?_⟩, fun hs => h.memory (hlogs.perms.trans hs)⟩
  simpa only [CarriesAll, hlogs.carries_iff] using hfailed.carried_iff hc

theorem after_does (h : s.Does s' write n offered False carried)
    (h' : s'.FailsWith f s'' False carried') :
    s.FailsWith f s'' False ((write = true → carried) ∧ carried') := by
  obtain ⟨new, vs, hlogs, hout⟩ := h
  obtain ⟨new', vs', hlogs', hfailed⟩ := h'.failed
  refine ⟨⟨_, _, hlogs.trans hlogs', False.elim, fun _ => ?_,
    forall_mem_append.mpr ⟨hout.inPage, hfailed.inPage⟩, fun _ => ?_⟩,
    fun hs => h'.memory (hlogs.perms.trans hs)⟩
  · rw [hout.silent id, hfailed.silent id, append_nil]
  · rw [filter_append]
    refine forall_mem_append.trans (and_congr ?_ ?_)
    · cases write with
      | false =>
        refine iff_of_true (fun e he i hi => ?_) nofun
        obtain ⟨he, hwrite⟩ := mem_filter.mp he
        rw [len_eq_zero_of_bytesOf (hout.bytesOf_eq true) he hwrite] at hi
        cases hi
      | true =>
        refine Iff.trans ⟨fun h e he i hi => ?_, fun h e he => h e (mem_filter.mp he).1⟩
          ((hout.carried_iff id).trans ⟨fun h _ => h, fun h => h rfl⟩)
        cases hwrite : e.write with
        | false =>
          rw [len_eq_zero_of_bytesOf (hout.bytesOf_eq false) he hwrite] at hi
          cases hi
        | true => exact hwrite ▸ h e (mem_filter.mpr ⟨he, hwrite⟩) i hi
    · simpa only [CarriesAll, hlogs.carries_iff] using hfailed.carried_iff id

end Cpu.FailsWith

/-- The accessor makes the half, or fails. -/
abbrev Makes (x : CpuM m α) (s : Cpu m) (write : Bool) (n : Nat) (offered checked carried : Prop) :
    Prop :=
  wp x s (fun _ s' => s.Does s' write n offered checked carried)
    fun f s' => s.FailsWith f s' checked carried

theorem Makes.congr {x : CpuM m α} {offered' checked' carried' : Prop}
    (h : Makes x s write n offered checked carried) (ho : offered ↔ offered')
    (hc : checked ↔ checked') (hcarried : carried ↔ carried') :
    Makes x s write n offered' checked' carried' :=
  h.mono (fun _ _ h => h.congr ho hc hcarried) fun _ _ h => h.congr hc hcarried

/-- The reader of physical memory touches the bytes it is to read. -/
abbrev ReadsBytes (memRead : BitVec 64 → CpuM m (BitVec (8 * n))) : Prop :=
  ∀ (s : Cpu m) (paddr : BitVec 64), m.Stable paddr n →
    wp (memRead paddr) s (fun _ s' => s.Touches s' false paddr n) fun _ _ => False

/-- The writer of physical memory touches the bytes it is to write. -/
abbrev WritesBytes (memWrite : Cpu m → BitVec 64 → BitVec (8 * n) → Cpu m)
    (val : BitVec (8 * n)) : Prop :=
  ∀ (s : Cpu m) (paddr : BitVec 64), m.Stable paddr n → s.Touches
      (memWrite s paddr val) true paddr n

/-- With an alignment check in front, an access may fail before anything happens. -/
theorem wp_aligned {x : CpuM m α} (laddr : BitVec 64) (acMask : BitVec 32)
    (hx : Makes x s write n offered checked carried) :
    Makes (checkAlignment laddr acMask >>= fun _ => x) s write n offered checked
      (s.AlignmentFault laddr acMask ∨ carried) := by
  by_cases hfault : s.AlignmentFault laddr acMask
  · refine .of_error (run_bind_of_error (checkAlignment_fault hfault)) ?_
    exact .of_silent (.refl s) (.inr rfl) fun _ => .inl hfault
  · rw [Makes, wp, run_bind_of_ok (checkAlignment_pass hfault)]
    exact Makes.congr hx .rfl .rfl (or_iff_right hfault).symm

/-! ## Dispatched accesses -/

/-- Between the states, the `n` bytes from `paddr` on were offered to the registered regions
and accessed. -/
def Cpu.Dispatches (s s' : Cpu m) (write : Bool) (paddr : BitVec 64) (n : Nat) : Prop :=
  ∃ new, s.Logs s' new [] ∧ Spans write paddr n new ∧ s.Serves new

theorem Cpu.Touches.dispatches (h : s.Touches s' write paddr n) (hn : 0 < n)
    (hfind : s.findMmio paddr = none) : s.Dispatches s' write paddr n := by
  obtain ⟨new, hlogs, hspans, -⟩ := h
  refine ⟨new, hlogs, hspans, fun hreg => ?_⟩
  -- the first byte would have been found
  obtain ⟨e, he, hpaddr, hlen⟩ := hspans.exists_first hn
  obtain ⟨r, hr, hcontains⟩ := hreg e he
  have hmiss := List.find?_eq_none.mp hfind r hr
  have hfirst := hcontains 0 hlen
  rw [BitVec.add_zero, hpaddr] at hfirst
  exact absurd (decide_eq_true hfirst) hmiss

theorem dispatches_callback (hn : 0 < n) {r : MmioRegion} (hfind : s.findMmio paddr = some r)
    (hlogs : s.Logs s' [⟨.mmio r.start, write, paddr, n⟩] []) : s.Dispatches s' write paddr n := by
  have hcontains : r.Contains paddr := by simpa using List.find?_some hfind
  refine ⟨_, hlogs, .single _ paddr hn, fun _ => List.forall_mem_singleton.mpr ?_⟩
  exact ⟨r, List.mem_of_find?_eq_some hfind, hcontains, rfl⟩

theorem wp_dispatchRead (s : Cpu m) (hn : 0 < n)
    (hread : ∀ s : Cpu m, wp (memRead paddr) s (fun _ s' => s.Touches s' false paddr n)
      (fun _ _ => False)) :
    wp (dispatchRead n memRead paddr) s (fun _ s' => s.Dispatches s' false paddr n)
      (fun _ _ => False) := by
  refine (wp_mmioRead s paddr n).bind ?_
  rintro v s' (⟨rfl, hfind, rfl⟩ | ⟨hv, r, hfind, hlogs⟩)
  · exact (hread s').mono fun _ _ h => h.dispatches hn hfind
  · obtain ⟨v, rfl⟩ := Option.isSome_iff_exists.mp hv
    exact .pure (dispatches_callback hn hfind hlogs)

variable {memWrite : Cpu m → BitVec 64 → BitVec (8 * n) → Cpu m} {val : BitVec (8 * n)}

theorem wp_dispatchWrite (s : Cpu m) (hn : 0 < n)
    (hwrite : ∀ s : Cpu m, s.Touches (memWrite s paddr val) true paddr n) :
    wp (dispatchWrite n memWrite paddr val) s (fun _ s' => s.Dispatches s' true paddr n)
      (fun _ _ => False) := by
  refine (wp_mmioWrite s paddr n _).bind ?_
  rintro b s' (⟨rfl, hfind, rfl⟩ | ⟨rfl, r, hfind, hlogs⟩)
  · exact .modify ((hwrite s').dispatches hn hfind)
  · exact .pure (dispatches_callback hn hfind hlogs)

/-- A dispatched access that nothing was checked for. -/
theorem Cpu.Dispatches.does (h : s.Dispatches s' write paddr n) (hn : 0 < n)
    (hpage : InPage paddr n) : s.Does s' write n True False (s.Carries paddr write) := by
  obtain ⟨new, hlogs, hspans, hoffered⟩ := h
  exact ⟨new, [], hlogs, .of_unchecked hspans (fun _ => hoffered) (absurd trivial) hn hpage⟩

/-! ## Reads and writes -/

theorem InPage.one (laddr : BitVec 64) : InPage laddr 1 := by
  unfold InPage
  rw [toNat_pageOffset]
  omega

/-- What a hit of the host-page probe stands for. -/
theorem translates_hit {isWrite : Bool} {hit : HostHit}
    (h : s.HitSpec laddr n isWrite hit) : Translates m laddr hit.paddr := by
  rw [h.paddr]
  exact translates_entry h.sound laddr

/-- The fast path is a check and a plain access. -/
theorem wp_hostOr (fast : HostHit → CpuM m α) {slow : CpuM m α} (hpos : 1 ≤ n) (hn : n ≤ 8)
    (hchecked : InPage laddr n → checked)
    (hfast : ∀ hit (s : Cpu m), wp (fast hit) s (fun _ s' => s.Touches s' write hit.paddr n)
      fun _ _ => False)
    (hslow : Makes slow s write n offered checked carried) :
    Makes (get >>= fun s => match s.hostHit laddr n write with
        | some hit => checkPerm laddr hit.paddr n write >>= fun _ => fast hit
        | none => slow) s write n (s.hostHit laddr n write = none ∧ offered) checked carried := by
  refine .get_bind ?_
  cases hhit : s.hostHit laddr n write with
  | some hit =>
    have hspec := hostHit_spec hpos hn hhit
    have htrue : True ↔ checked := iff_of_true trivial (hchecked hspec.inPage)
    refine (wp_checkPerm s laddr hit.paddr n write).bind ?_ fun _ _ h =>
      .of_check h (htrue.mp trivial)
    rintro _ s₁ ⟨vs, hlogs, hpass⟩
    refine (hfast hit s₁).mono ?_
    rintro _ s' ⟨new, hlogs', hspans, hplain⟩
    have hvs := hlogs.trans hlogs'
    rw [append_nil] at hvs
    have hdoes : s.Does s' write n False True carried := ⟨new, vs, hvs,
      .of_spans hspans False.elim (fun _ => hplain) (translates_hit hspec) hspec.inPage hpass⟩
    exact hdoes.congr (by simp) htrue .rfl
  | none =>
    exact Makes.congr hslow (by simp) .rfl .rfl

theorem wp_readHostOr (hpos : 1 ≤ n) (hn : n ≤ 8) {slow : CpuM m (BitVec (8 * n))}
    (hslow : Makes slow s false n (InPage laddr n) (InPage laddr n) carried) :
    Makes (readHostOr n laddr slow) s false n (s.hostHit laddr n false = none ∧ InPage laddr n)
      (InPage laddr n) carried :=
  wp_hostOr (fun hit => ramRead n hit.offset hit.paddr) hpos hn id
    (fun hit s => wp_ramRead s hpos hit.offset hit.paddr) hslow

theorem wp_writeHostOr (hpos : 1 ≤ n) (hn : n ≤ 8) {slow : CpuM m PUnit}
    (hchecked : InPage laddr n → checked)
    (hslow : Makes slow s true n offered checked carried) :
    Makes (writeHostOr n laddr val slow) s true n
      (s.hostHit laddr n true = none ∧ offered) checked carried :=
  wp_hostOr (fun hit => modify fun s : Cpu m => s.ramWrite .data n hit.offset hit.paddr val) hpos hn
    hchecked (fun _ s => .modify (touches_ramWrite s hpos ..)) hslow

/-- An access within one page is checked and then dispatched. -/
theorem wp_onePage (s : Cpu m) (write : Bool) (hpage : InPage laddr n)
    {access : BitVec 64 → CpuM m α}
    (haccess : ∀ (s : Cpu m) (paddr : BitVec 64), m.Stable paddr n →
      wp (access paddr) s (fun _ s' => s.Dispatches s' write paddr n) fun _ _ => False) :
    Makes (translateDataAccess laddr write false >>= fun paddr =>
        checkPerm laddr paddr n write >>= fun _ => access paddr) s write n True True carried := by
  refine (wp_translateDataAccess s laddr write).bind ?_
    fun _ _ h => .of_pageFault h (absurd trivial)
  rintro paddr s₀ ⟨hlogs₀, htrans⟩
  refine (wp_checkPerm s₀ laddr paddr n write).bind ?_
    fun _ _ h => .after hlogs₀ (.of_check h trivial)
  rintro _ s₁ ⟨vs, hlogs, hpass⟩
  refine (haccess s₁ paddr (htrans.stable hpage)).mono ?_
  rintro _ s' ⟨new, hlogs', hspans, hoffered⟩
  rw [Serves, hlogs.mmio] at hoffered
  have hvs := hlogs.trans hlogs'
  rw [append_nil] at hvs
  exact .after hlogs₀ ⟨new, vs, hvs,
    .of_spans hspans (fun _ => hoffered) (absurd trivial) htrans hpage hpass⟩

theorem wp_readOnePage (s : Cpu m) (hn : 0 < n) (hpage : InPage laddr n)
    (hread : ReadsBytes memRead) :
    Makes (readOnePage n memRead laddr) s false n True True carried :=
  wp_onePage s false hpage fun s paddr h => wp_dispatchRead s hn fun s => hread s paddr h

theorem wp_writeOnePage (s : Cpu m) (hn : 0 < n) (hpage : InPage laddr n)
    (hwrite : WritesBytes memWrite val) :
    Makes (writeOnePage n memWrite laddr val) s true n True True carried :=
  wp_onePage s true hpage fun s paddr h => wp_dispatchWrite s hn fun s => hwrite s paddr h

/-- Within one page an access is offered and checked, and neither if it goes in pieces. -/
theorem wp_pageOr {one pieces : CpuM m α}
    (hone : InPage laddr n → Makes one s write n True True carried)
    (hpieces : ¬ InPage laddr n → Makes pieces s write n False False carried) :
    Makes (if InPage laddr n then one else pieces) s write n (InPage laddr n) (InPage laddr n)
      carried := by
  refine .ite (fun hpage => ?_) fun hpage => ?_
  · have htrue : True ↔ InPage laddr n := iff_of_true trivial hpage
    exact (hone hpage).congr htrue htrue .rfl
  · have hfalse : False ↔ InPage laddr n := iff_of_false id hpage
    exact (hpieces hpage).congr hfalse hfalse .rfl

/-! ### Byte by byte -/

/-- The physical addresses of the bytes `i .. i + n` of an access that translates and accesses
each byte by itself, up to the first fault. -/
def Cpu.splitAddrs {w : Nat} (write : Bool) (laddr : BitVec 64) (val : BitVec w) :
    (i n : Nat) → Cpu m → List (BitVec 64)
  | _, 0, _ => []
  | i, n + 1, s =>
    match (translateDataAccess (laddr + BitVec.ofNat 64 i) write false).run s with
    | .ok p s₁ =>
      let s₂ := if write then s₁.memWriteByte .data p (byteAt val i)
        else finalState ((memReadByte p).run s₁)
      p :: splitAddrs write laddr val (i + 1) n s₂
    | .error _ _ => []

/-- A read that goes byte by byte to its end finds pages that carry the permission. -/
def Cpu.SplitReadCarried (s : Cpu m) (laddr : BitVec 64) (n : Nat) : Prop :=
  let ps := s.splitAddrs false laddr 0#64 0 n
  ps.length = n → ∀ p ∈ ps, s.Carries p false

/-- A write that goes byte by byte finds pages that carry the permission. -/
def Cpu.SplitWriteCarried {w : Nat} (s : Cpu m) (laddr : BitVec 64) (val : BitVec w) (i n : Nat) :
    Prop :=
  ∀ p ∈ s.splitAddrs true laddr val i n, s.Carries p true

/-- Between the states, `i` of the `n` bytes of a read were read one by one. -/
def Cpu.ReadSplit (s s' : Cpu m) (laddr : BitVec 64) (n i : Nat) : Prop :=
  ∃ ps, ps.length = i ∧
    s.splitAddrs false laddr 0#64 0 n = ps ++ s'.splitAddrs false laddr 0#64 i (n - i) ∧
    s.Does s' false i False False (∀ p ∈ ps, s.Carries p false)

theorem Cpu.ReadSplit.does (h : s.ReadSplit s' laddr n n) :
    s.Does s' false n False False (s.SplitReadCarried laddr n) := by
  obtain ⟨ps, hlen, haddrs, hdoes⟩ := h
  rw [Nat.sub_self, splitAddrs, append_nil] at haddrs
  refine hdoes.congr .rfl .rfl ?_
  rw [SplitReadCarried, haddrs]
  exact ⟨fun h _ => h, fun h => h hlen⟩

section

variable (s : Cpu m)

theorem Cpu.ReadSplit.start (laddr : BitVec 64) (n : Nat) : s.ReadSplit s laddr n 0 :=
  ⟨[], rfl, rfl, (Does.refl s false).congr .rfl .rfl (by simp)⟩

/-- One more byte translated and read by itself. -/
theorem wp_readSplitByte {i : Nat} (hi : i < n) (h : s.ReadSplit s' laddr n i) :
    wp (translateDataRead (laddr + BitVec.ofNat 64 i) >>= memReadByte) s'
      (fun _ s'' => s.ReadSplit s'' laddr n (i + 1))
      fun f s'' => s.FailsWith f s'' False (s.SplitReadCarried laddr n) := by
  obtain ⟨ps, hlen, haddrs, hdoes⟩ := h
  obtain ⟨k, hk⟩ : ∃ k, n - i = k + 1 := ⟨n - i - 1, by omega⟩
  rw [hk, splitAddrs] at haddrs
  refine (wp_translateDataAccess s' _ false).with_run.bind ?_ ?_
  · rintro p s₁ ⟨hrun, hlogs, htrans⟩
    refine (wp_memReadByte s₁ htrans.a20).with_run.mono ?_ fun _ _ h => h.2.elim
    rintro b s₂ ⟨hread, hbyte⟩
    rw [hrun] at haddrs
    simp only [Bool.false_eq_true, if_false, hread] at haddrs
    have hnext : s'.Does s₂ false 1 False False (s₁.Carries p false) :=
      .after hlogs (hbyte.does one_pos (.one p))
    refine ⟨ps ++ [p], by simp [hlen], ?_, (hdoes.trans hnext).congr .rfl .rfl ?_⟩
    · rw [haddrs, List.append_assoc, show n - (i + 1) = k by omega]
      rfl
    · simp [hlogs.carries_iff, hdoes.carries_iff, or_imp, forall_and]
  · -- the address list ends here, short of the length
    rintro f s₁ ⟨hrun, hlogs, hpf⟩
    rw [hrun, append_nil] at haddrs
    refine (FailsWith.after_does hdoes (.of_pageFault ⟨hlogs, hpf⟩ fun _ => trivial)).congr .rfl
      (iff_of_true ⟨nofun, trivial⟩ ?_)
    rw [SplitReadCarried, haddrs]
    intro hfull
    omega

theorem wp_readBytewise (n : Nat) (laddr : BitVec 64) :
    Makes (readBytewise n laddr) s false n False False (s.SplitReadCarried laddr n) := by
  refine (wp_gatherBytes (I := fun i s' => s.ReadSplit s' laddr n i) (.start s laddr n) ?_).mono
    fun _ _ h => h.does
  exact fun i hi s' h => wp_readSplitByte s hi h

theorem wp_writeBytewiseFrom {w : Nat} (laddr : BitVec 64) (val : BitVec w) (i n : Nat) :
    Makes (writeBytewiseFrom laddr val i n) s true n False False
      (s.SplitWriteCarried laddr val i n) := by
  unfold SplitWriteCarried
  induction n generalizing s i with
  | zero => exact .pure ((Does.refl s true).congr .rfl .rfl (by simp [splitAddrs]))
  | succ n ih =>
    rw [splitAddrs]
    refine (wp_translateDataAccess s _ true).with_run.bind ?_ ?_
    · rintro p s₁ ⟨hrun, hlogs, htrans⟩
      have hbyte := touches_memWriteByte s₁ htrans.a20 (byteAt val i)
      have hdoes := Does.after hlogs (hbyte.does one_pos (.one p))
      rw [hrun]
      refine .modify_bind ((ih _ (i + 1)).mono (fun _ s' h => ?_) fun _ _ h => ?_)
      · rw [Nat.add_comm n 1]
        refine (hdoes.trans h).congr .rfl .rfl ?_
        simp [hdoes.carries_iff, hlogs.carries_iff]
      · refine (FailsWith.after_does hdoes h).congr .rfl ?_
        simp [hdoes.carries_iff, hlogs.carries_iff]
    · rintro f s₁ ⟨hrun, hfault⟩
      rw [hrun]
      exact .of_pageFault hfault fun _ => forall_mem_nil _

/-- The second byte of a word that crosses a page begins the next page. -/
theorem nextPage_eq (hpage : ¬ InPage laddr 2) : nextPage laddr = laddr + 1#64 := by
  have hlow : laddr ||| 0xFFF#64 = laddr := by
    unfold InPage at hpage
    rw [toNat_pageOffset] at hpage
    have hoff : pageOffset laddr = 0xFFF#64 := by
      apply eq_of_toNat_eq
      rw [toNat_pageOffset]
      simp
      omega
    rw [← hoff, pageOffset]
    ext i hi
    simp +contextual
  rw [nextPage, hlow]

theorem wp_readLinearWord (laddr : BitVec 64) :
    Makes (readLinearWord laddr) s false 2 (s.hostHit laddr 2 false = none ∧ InPage laddr 2)
      (InPage laddr 2) (s.AlignmentFault laddr 1#32 ∨ s.SplitReadCarried laddr 2) := by
  refine wp_aligned laddr 1#32 (wp_readHostOr (by decide) (by decide)
    (wp_pageOr (fun hpage => ?_) fun hpage => ?_))
  · exact wp_readOnePage s (by decide) hpage fun s _ h => wp_memReadWord s h
  · have hsplit : (do
        let p0 ← translateDataRead laddr
        let b0 ← memReadByte p0
        let p1 ← translateDataRead (nextPage laddr)
        let b1 ← memReadByte p1
        return b1 ++ b0 : CpuM m (BitVec 16)) =
        (do
          let b0 ← translateDataRead (laddr + BitVec.ofNat 64 0) >>= memReadByte
          let b1 ← translateDataRead (laddr + BitVec.ofNat 64 1) >>= memReadByte
          return b1 ++ b0) := by
      rw [nextPage_eq hpage]
      simp
    rw [hsplit]
    refine (wp_readSplitByte s (by decide) (.start s laddr 2)).bind fun b0 s₁ h0 => ?_
    exact (wp_readSplitByte s (by decide) h0).bind fun b1 s₂ h1 => .pure h1.does

/-- A read that goes byte by byte when it crosses a page. -/
theorem wp_readWide (hpos : 1 ≤ n) (hn : n ≤ 8) (laddr : BitVec 64) (acMask : BitVec 32)
    (hread : ReadsBytes memRead) :
    Makes (checkAlignment laddr acMask >>= fun _ => readHostOr n laddr <|
        if InPage laddr n then readOnePage n memRead laddr else readBytewise n laddr) s false n
          (s.hostHit laddr n false = none ∧ InPage laddr n) (InPage laddr n)
          (s.AlignmentFault laddr acMask ∨ s.SplitReadCarried laddr n) :=
  wp_aligned laddr acMask (wp_readHostOr hpos hn (wp_pageOr
    (fun hpage => wp_readOnePage s hpos hpage hread) fun _ => wp_readBytewise s n laddr))

/-- The bits of an address that are clear in an aligned one. -/
def AccessWidth.acMask (width : AccessWidth) : BitVec 32 :=
  BitVec.ofNat 32 (width.bytes - 1)

theorem wp_readLinear (width : AccessWidth) (laddr : BitVec 64) :
    Makes (readLinear width laddr) s false width.bytes
      (s.hostHit laddr width.bytes false = none ∧ InPage laddr width.bytes)
        (InPage laddr width.bytes)
        (s.AlignmentFault laddr width.acMask ∨ s.SplitReadCarried laddr width.bytes) := by
  cases width with
  | byte =>
    have htrue : True ↔ InPage laddr 1 := iff_of_true trivial (.one laddr)
    have hslow {carried : Prop} : Makes (readOnePage 1 memReadByte laddr) s false 1 (InPage laddr 1)
        (InPage laddr 1) carried :=
      (wp_readOnePage s (by decide) (.one laddr) fun s p h =>
        wp_memReadByte s (h.first (by decide))).congr htrue htrue .rfl
    exact (wp_readHostOr (by decide) (by decide) hslow).bind fun _ _ h => .pure h
  | word => exact (wp_readLinearWord s laddr).bind fun _ _ h => .pure h
  | dword =>
    exact (wp_readWide s (by decide) (by decide) laddr 3#32 fun s _ h => wp_memReadDword s h).bind
      fun _ _ h => .pure h
  | qword => exact wp_readWide s (by decide) (by decide) laddr 7#32 fun s _ h => wp_memReadBytes s h

theorem wp_writeLinearWord (laddr : BitVec 64) (val : BitVec 16) :
    Makes (writeLinearWord laddr val) s true 2 (s.hostHit laddr 2 true = none ∧ True) True
      (s.AlignmentFault laddr 1#32 ∨ carried) := by
  refine wp_aligned laddr 1#32 (wp_writeHostOr (by decide) (by decide) (fun _ => trivial)
    (.ite (fun hpage => ?_) fun _ => ?_))
  · exact wp_writeOnePage s (by decide) hpage fun s _ h => touches_memWriteWord s h val
  · refine (wp_translateDataAccess s laddr true).bind ?_
      fun _ _ h => .of_pageFault h (absurd trivial)
    rintro p0 s₀ ⟨hlogs₀, htrans₀⟩
    refine (wp_translateDataAccess s₀ (nextPage laddr) true).bind ?_
      fun _ _ h => .after hlogs₀ (.of_pageFault h (absurd trivial))
    rintro p1 s₁ ⟨hlogs₁, htrans₁⟩
    have hlogs := hlogs₀.silent_trans hlogs₁
    refine (wp_checkPerm s₁ laddr p0 1 true).bind ?_
      fun _ _ h => .after hlogs (.of_check h trivial)
    rintro _ s₂ ⟨vs₀, hlogs₂, hpass₀⟩
    refine (wp_checkPerm s₂ (nextPage laddr) p1 1 true).bind ?_
      fun _ _ ⟨hperms, vs₁, h⟩ => .after hlogs
        (.of_check ⟨hlogs₂.perms ▸ hperms, vs₀ ++ vs₁, hlogs₂.trans h⟩ trivial)
    rintro _ s₃ ⟨vs₁, hlogs₃, hpass₁⟩
    refine (wp_dispatchWrite s₃ (by decide) fun s =>
      touches_memWriteByte s htrans₀.a20 (byteAt val 0)).bind ?_
    rintro _ s₄ ⟨new₀, hlogs₄, hspans₀, hoffered₀⟩
    refine (wp_dispatchWrite s₄ (by decide) fun s =>
      touches_memWriteByte s htrans₁.a20 (byteAt val 1)).mono ?_
    rintro _ s₅ ⟨new₁, hlogs₅, hspans₁, hoffered₁⟩
    -- both checks precede both writes, so the logs interleave but the outcomes do not
    have hvs := hlogs₂.trans (hlogs₃.trans (hlogs₄.trans hlogs₅))
    rw [append_nil, append_nil] at hvs
    have hfirst : s₁.Outcome (only true 1) True True carried new₀ vs₀ := by
      rw [Serves, hlogs₃.mmio, hlogs₂.mmio] at hoffered₀
      exact .of_spans hspans₀ (fun _ => hoffered₀) (absurd trivial) htrans₀ (.one laddr) hpass₀
    have hsecond : s₂.Outcome (only true 1) True True carried new₁ vs₁ := by
      rw [Serves, hlogs₄.mmio, hlogs₃.mmio] at hoffered₁
      exact .of_spans hspans₁ (fun _ => hoffered₁) (absurd trivial) htrans₁ (.one _) hpass₁
    have hboth := hfirst.append (.of_logs hlogs₂ hsecond)
    rw [only_add] at hboth
    exact .after hlogs (Does.congr ⟨_, _, hvs, hboth⟩ .rfl .rfl (iff_of_eq (and_self carried)))

/-- A write that goes byte by byte when it crosses a page. -/
theorem wp_writeWide (hpos : 1 ≤ n) (hn : n ≤ 8) (laddr : BitVec 64) (acMask : BitVec 32)
    (hwrite : WritesBytes memWrite val) :
    Makes (checkAlignment laddr acMask >>= fun _ => writeHostOr n laddr val <|
        if InPage laddr n then writeOnePage n memWrite laddr val
        else writeBytewiseFrom laddr val 0 n) s true n
          (s.hostHit laddr n true = none ∧ InPage laddr n) (InPage laddr n)
          (s.AlignmentFault laddr acMask ∨ s.SplitWriteCarried laddr val 0 n) :=
  wp_aligned laddr acMask (wp_writeHostOr hpos hn id (wp_pageOr
    (fun hpage => wp_writeOnePage s hpos hpage hwrite)
    fun _ => wp_writeBytewiseFrom s laddr val 0 n))

/-! ## Read-modify-writes -/

/-- The translations a read-modify-write of `n` bytes can have prepared; `fast` is what the
fast path was taken for. -/
inductive Prepared (m : Machine) (n : Nat) (fast : Prop) : AddressXlation → Prop
  | host (offset : Nat) (paddr : BitVec 64) (hpage : InPage paddr n) (hfast : fast) :
      Prepared m n fast (.host offset paddr)
  | one (paddr : BitVec 64) (hpage : InPage paddr n) (hstable : m.Stable paddr n) :
      Prepared m n fast (.one paddr)
  | two (p0 p1 : BitVec 64) {len1 len2 : Nat} (hlen1 : 0 < len1) (hlen2 : 0 < len2)
      (hsum : len1 + len2 = n) (hpage0 : InPage p0 len1) (hstable0 : m.Stable p0 len1)
      (hpage1 : InPage p1 len2) (hstable1 : m.Stable p1 len2) :
      Prepared m n fast (.two p0 p1 len1 len2)

/-- One address on each page of a prepared read-modify-write. -/
def AddressXlation.addrs : AddressXlation → List (BitVec 64)
  | .host _ paddr | .one paddr => [paddr]
  | .two p0 p1 _ _ => [p0, p1]
  | .empty => []

/-- The addresses a read-modify-write of `n` bytes finds for its pages after its probe. -/
def Cpu.rmwAddrs (s : Cpu m) (n : Nat) (laddr : BitVec 64) : Option HostHit → List (BitVec 64)
  | some hit => [hit.paddr]
  | none =>
    match (translateDataWrite laddr).run s with
    | .error _ _ => []
    | .ok p0 s₀ =>
      if InPage laddr n then [p0]
      else match (translateDataWrite (nextPage laddr)).run s₀ with
        | .error _ _ => []
        | .ok p1 _ => [p0, p1]

theorem pageOffset_nextPage (laddr : BitVec 64) : (pageOffset (nextPage laddr)).toNat = 0 := by
  have hlow : pageOffset (laddr ||| 0xFFF#64) = 0xFFF#64 := by
    apply eq_of_getLsbD_eq
    intro i hi
    interval_cases i <;> simp [pageOffset]
  have hnat := congrArg BitVec.toNat hlow
  rw [toNat_pageOffset] at hnat
  unfold nextPage
  rw [toNat_pageOffset, toNat_add]
  simp only [toNat_ofNat] at hnat ⊢
  omega

/-- How a page-crossing access of `n` bytes divides. -/
theorem split_lengths (hn : n ≤ 8) (hpage : ¬ InPage laddr n) :
    0 < 0x1000 - (pageOffset laddr).toNat ∧ 0x1000 - (pageOffset laddr).toNat < n ∧
      InPage laddr (0x1000 - (pageOffset laddr).toNat) ∧
      InPage (nextPage laddr) (n - (0x1000 - (pageOffset laddr).toNat)) := by
  unfold InPage at *
  rw [pageOffset_nextPage]
  rw [toNat_pageOffset] at *
  omega

/-- The translations fault, so the read-modify-write reaches no page. -/
def Cpu.Faults (s : Cpu m) (f : Fault) (s' : Cpu m) (addrs : List (BitVec 64)) : Prop :=
  (s.Logs s' [] [] ∧ f.vector = .pf) ∧ addrs = []

variable {s} {Q : α → Cpu m → Prop}

/-- The translation of a read-modify-write within one page. -/
theorem wp_translateOne (hpage : InPage laddr n) {k : BitVec 64 → CpuM m α}
    (hk : ∀ p s₁, s.Logs s₁ [] [] → InPage p n → m.Stable p n → s.rmwAddrs n laddr none = [p] →
      wp (k p) s₁ Q fun f s' => s.Faults f s' (s.rmwAddrs n laddr none)) :
    wp (translateDataWrite laddr >>= k) s Q
      fun f s' => s.Faults f s' (s.rmwAddrs n laddr none) := by
  refine (wp_translateDataAccess s laddr true).with_run.bind ?_ ?_
  · rintro p s₁ ⟨hrun, hlogs, htrans⟩
    refine hk p s₁ hlogs (.of_translates htrans hpage) (htrans.stable hpage) ?_
    simp only [rmwAddrs, translateDataWrite, hrun, if_pos hpage]
  · rintro f s₁ ⟨hrun, hfault⟩
    exact ⟨hfault, by simp only [rmwAddrs, translateDataWrite, hrun]⟩

/-- The two translations of a read-modify-write that crosses a page. -/
theorem wp_translateTwo (hn : n ≤ 8) (hpage : ¬ InPage laddr n)
    {k : BitVec 64 → BitVec 64 → CpuM m α}
    (hk : ∀ p0 p1 s₁, s.Logs s₁ [] [] → (∀ fast, Prepared m n fast (.two p0 p1
        (0x1000 - (pageOffset laddr).toNat) (n - (0x1000 - (pageOffset laddr).toNat)))) →
      s.rmwAddrs n laddr none = [p0, p1] →
      wp (k p0 p1) s₁ Q fun f s' => s.Faults f s' (s.rmwAddrs n laddr none)) :
    wp (translateDataWrite laddr >>= fun p0 => translateDataWrite (nextPage laddr) >>= k p0) s Q
      fun f s' => s.Faults f s' (s.rmwAddrs n laddr none) := by
  obtain ⟨hlen1, hlt, hpage1, hpage2⟩ := split_lengths hn hpage
  refine (wp_translateDataAccess s laddr true).with_run.bind ?_ ?_
  · rintro p0 s₀ ⟨hrun₀, hlogs₀, htrans₀⟩
    refine (wp_translateDataAccess s₀ (nextPage laddr) true).with_run.bind ?_ ?_
    · rintro p1 s₁ ⟨hrun₁, hlogs₁, htrans₁⟩
      refine hk p0 p1 s₁ (hlogs₀.silent_trans hlogs₁) (fun _ => .two p0 p1 hlen1 (by omega)
        (by omega) (.of_translates htrans₀ hpage1) (htrans₀.stable hpage1)
        (.of_translates htrans₁ hpage2) (htrans₁.stable hpage2)) ?_
      simp only [rmwAddrs, translateDataWrite, hrun₀, hrun₁, if_neg hpage]
    · rintro f s₁ ⟨hrun₁, hlogs₁, hpf⟩
      exact ⟨⟨hlogs₀.silent_trans hlogs₁, hpf⟩,
        by simp only [rmwAddrs, translateDataWrite, hrun₀, hrun₁, if_neg hpage]⟩
  · rintro f s₁ ⟨hrun, hfault⟩
    exact ⟨hfault, by simp only [rmwAddrs, translateDataWrite, hrun]⟩

theorem inPage_hit (hpos : 1 ≤ n) (hn : n ≤ 8) {isWrite : Bool} {hit : HostHit}
    (h : s.hostHit laddr n isWrite = some hit) : InPage hit.paddr n := by
  have hspec := hostHit_spec hpos hn h
  exact .of_translates (translates_hit hspec) hspec.inPage

variable (s)

theorem wp_prepareRmwLinear (hpos : 1 ≤ n) (hn : n ≤ 8) (laddr : BitVec 64)
    {probe : Option HostHit}
    (hprobe : (if s.mmio.isEmpty then s.hostHit laddr n true else none) = probe) :
    wp (prepareRmwLinear n laddr) s
      (fun _ s' => { s with addressXlation := s'.addressXlation }.Logs s' [] [] ∧
        Prepared m n (s.mmio = []) s'.addressXlation ∧
        s'.addressXlation.addrs = s.rmwAddrs n laddr probe)
      fun f s' => s.Faults f s' (s.rmwAddrs n laddr probe) := by
  refine .get_bind ?_
  rw [hprobe]
  cases probe with
  | some hit =>
    rw [Option.ite_none_right_eq_some] at hprobe
    exact .modify ⟨(Logs.refl s).setXlation _,
      .host _ _ (inPage_hit hpos hn hprobe.2) (List.isEmpty_iff.mp hprobe.1), rfl⟩
  | none =>
    refine .ite (fun hpage => wp_translateOne hpage ?_) fun hpage => wp_translateTwo hn hpage ?_
    · intro p s₁ hlogs hp hstable haddrs
      exact .modify ⟨hlogs.setXlation _, .one p hp hstable, haddrs.symm⟩
    · intro p0 p1 s₁ hlogs hprep haddrs
      exact .modify ⟨hlogs.setXlation _, hprep _, haddrs.symm⟩

end

theorem Cpu.Touches.does_unregistered (h : s.Touches s' write paddr n) (hn : 0 < n)
    (hpage : InPage paddr n) (hmmio : s.mmio = []) :
    s.Does s' write n True False (s.Carries paddr write) := by
  refine (h.dispatches hn ?_).does hn hpage
  unfold findMmio
  rw [hmmio]
  rfl

/-- A half on the two pages of a prepared translation. -/
theorem Cpu.Does.two {p0 p1 : BitVec 64} {len1 len2 : Nat}
    (h0 : s.Does s' write len1 offered False (s.Carries p0 write))
    (h1 : s'.Does s'' write len2 offered False (s'.Carries p1 write)) (hsum : len1 + len2 = n) :
    s.Does s'' write n offered False (∀ p ∈ [p0, p1], s.Carries p write) := by
  rw [← hsum]
  exact (h0.trans h1).congr .rfl .rfl (by simp [h0.carries_iff])

theorem Cpu.Does.one (h : s.Does s' write n offered checked (s.Carries paddr write)) :
    s.Does s' write n offered checked (∀ p ∈ [paddr], s.Carries p write) :=
  h.congr .rfl .rfl (by simp)

theorem wp_readPreparedRmw (s : Cpu m) (hn : 0 < n) (hread : ReadsBytes memRead)
    (hprep : Prepared m n (s.mmio = []) s.addressXlation) :
    wp (readPreparedRmw n memRead) s (fun _ s' => s.Does s' false n True False
      (∀ p ∈ s.addressXlation.addrs, s.Carries p false)) fun _ _ => False := by
  refine .get_bind ?_
  generalize s.addressXlation = x at hprep
  cases hprep with
  | host offset paddr hpage hmmio =>
    refine (wp_ramRead s hn offset paddr).mono fun _ _ h => ?_
    exact (h.does_unregistered hn hpage hmmio).one
  | one paddr hpage hstable =>
    exact (wp_dispatchRead s hn fun s => hread s paddr hstable).mono
      fun _ _ h => (h.does hn hpage).one
  | two p0 p1 hlen1 hlen2 hsum hpage0 hstable0 hpage1 hstable1 =>
    refine (wp_dispatchRead s hlen1 fun s => wp_memReadBytes s hstable0).bind
      fun _ s₁ h0 => ?_
    refine (wp_dispatchRead s₁ hlen2 fun s => wp_memReadBytes s hstable1).bind
      fun _ s₂ h1 => .pure ?_
    exact .two (h0.does hlen1 hpage0) (h1.does hlen2 hpage1) hsum

theorem wp_writeRmwLinear (s : Cpu m) (hn : 0 < n) (hwrite : WritesBytes memWrite val)
    (hprep : Prepared m n (s.mmio = []) s.addressXlation) :
    wp (writeRmwLinear n memWrite val) s (fun _ s' => s.Does s' true n True False
      (∀ p ∈ s.addressXlation.addrs, s.Carries p true)) fun _ _ => False := by
  refine .get_bind ?_
  generalize s.addressXlation = x at hprep
  cases hprep with
  | host offset paddr hpage hmmio =>
    exact .modify ((touches_ramWrite s hn offset paddr val).does_unregistered hn hpage hmmio).one
  | one paddr hpage hstable =>
    exact (wp_dispatchWrite s hn fun s => hwrite s paddr hstable).mono
      fun _ _ h => (h.does hn hpage).one
  | two p0 p1 hlen1 hlen2 hsum hpage0 hstable0 hpage1 hstable1 =>
    refine (wp_dispatchWrite s hlen1 fun s => touches_memWriteBytes s hstable0 _).bind
      fun _ s₁ h0 => ?_
    refine (wp_dispatchWrite s₁ hlen2 fun s => touches_memWriteBytes s hstable1 _).mono
      fun _ s₂ h1 => ?_
    exact .two (h0.does hlen1 hpage0) (h1.does hlen2 hpage1) hsum

/-- Between the states `n` bytes were read and then written on the pages of `addrs`, neither
checked. -/
def Cpu.Modifies (s s' : Cpu m) (n : Nat) (offered : Prop) (addrs : List (BitVec 64)) : Prop :=
  ∃ x new vs, { s with addressXlation := x }.Logs s' new vs ∧
    s.Outcome (only false n + only true n) offered False
      ((∀ p ∈ addrs, s.Carries p false) ∧ ∀ p ∈ addrs, s.Carries p true) new vs

/-- The read half of a read-modify-write was made, and its translation is kept for the write. -/
def Cpu.ReadsRmw (s s' : Cpu m) (n : Nat) (offered fast : Prop) (addrs : List (BitVec 64)) : Prop :=
  { s with addressXlation := s'.addressXlation }.Does s' false n offered False
      (∀ p ∈ addrs, s.Carries p false) ∧
    Prepared m n fast s'.addressXlation ∧ s'.addressXlation.addrs = addrs

theorem Cpu.ReadsRmw.modifies {s₁ : Cpu m} {fast : Prop} {addrs : List (BitVec 64)}
    (h : s.ReadsRmw s₁ n offered fast addrs)
    (h' : s₁.Does s' true n offered False (∀ p ∈ s₁.addressXlation.addrs, s₁.Carries p true)) :
    s.Modifies s' n offered addrs := by
  obtain ⟨hreads, -, haddrs⟩ := h
  rw [haddrs] at h'
  obtain ⟨new', vs', hlogs', hwritten⟩ :=
    h'.congr .rfl .rfl (forall₂_congr fun p _ => hreads.carries_iff)
  obtain ⟨new, vs, hlogs, hread⟩ := hreads
  exact ⟨_, _, _, hlogs.trans hlogs',
    (hread.append (.of_logs hlogs hwritten)).of_eq rfl rfl rfl⟩

theorem wp_rmwLinearNarrow (s : Cpu m) (hpos : 1 ≤ n) (hn : n ≤ 8) (hread : ReadsBytes memRead)
    (hwrite : ∀ (s : Cpu m) (paddr : BitVec 64) (val : BitVec (8 * n)), m.Stable paddr n →
      s.Touches (memWrite s paddr val) true paddr n) (laddr : BitVec 64)
    (f : BitVec 64 → BitVec 64) {probe : Option HostHit}
    (hprobe : (if s.mmio.isEmpty then s.hostHit laddr n true else none) = probe) :
    wp (rmwLinearNarrow n memRead memWrite laddr f) s
      (fun _ s' => s.Modifies s' n True (s.rmwAddrs n laddr probe))
      fun f s' => s.Faults f s' (s.rmwAddrs n laddr probe) := by
  refine wp.bind (Q := fun _ s₁ => s.ReadsRmw s₁ n True (s₁.mmio = []) (s.rmwAddrs n laddr probe))
    (E := fun f s' => s.Faults f s' (s.rmwAddrs n laddr probe)) ?_ ?_
  · refine (wp_prepareRmwLinear s hpos hn laddr hprobe).bind ?_
    rintro _ s₀ ⟨hlogs₀, hprep, haddrs⟩
    have hmmio : s₀.mmio = s.mmio := hlogs₀.mmio
    rw [← hmmio] at hprep
    refine (wp_readPreparedRmw s₀ hpos hread hprep).mono ?_
    rintro _ s₁ ⟨new, vs, hlogs, hout⟩
    have hdoes := Does.after hlogs₀ ⟨new, vs, hlogs, hout⟩
    rw [haddrs] at hdoes
    rw [ReadsRmw, hlogs.xlation, hlogs.mmio]
    exact ⟨hdoes.congr .rfl .rfl (forall₂_congr fun p _ => hlogs₀.carries_iff), hprep, haddrs⟩
  · intro v s₁ hreads
    refine (wp_writeRmwLinear s₁ hpos (fun s p h => hwrite s p _ h) hreads.2.1).mono ?_
    exact fun _ s' hwrites => hreads.modifies hwrites

theorem wp_readRmwLinearQword (s : Cpu m) (laddr : BitVec 64) :
    wp (readRmwLinearQword laddr) s
      (fun _ s' => s.ReadsRmw s' 8 False True (s.rmwAddrs 8 laddr (s.hostHit laddr 8 true)))
      fun f s' => s.Faults f s' (s.rmwAddrs 8 laddr (s.hostHit laddr 8 true)) := by
  refine .get_bind ?_
  cases hhit : s.hostHit laddr 8 true with
  | some hit =>
    have hpage := inPage_hit (by decide) (by decide) hhit
    refine (wp_ramRead s (by decide) hit.offset hit.paddr).bind fun _ s₁ h => ?_
    exact .modify_bind (.pure ⟨(h.does (by decide) hpage).one.setXlation _,
      .host _ _ hpage trivial, rfl⟩)
  | none =>
    refine .ite (fun hpage => wp_translateOne hpage ?_) fun hpage =>
      wp_translateTwo (by decide) hpage ?_
    · intro p s₀ hlogs hp hstable haddrs
      rw [haddrs]
      refine (wp_memReadBytes s₀ hstable).bind fun _ s₁ h => ?_
      have hdoes := (Does.after hlogs (h.does (by decide) hp).one).congr .rfl .rfl
        (forall₂_congr fun p _ => hlogs.carries_iff)
      exact .modify_bind (.pure ⟨hdoes.setXlation _, .one p hp hstable, rfl⟩)
    · intro p0 p1 s₀ hlogs hprep haddrs
      rw [haddrs]
      cases hprep True with
      | two _ _ hlen1 hlen2 hsum hpage0 hstable0 hpage1 hstable1 =>
        refine (wp_memReadBytes s₀ hstable0).bind fun _ s₁ h0 => ?_
        refine (wp_memReadBytes s₁ hstable1).bind fun _ s₂ h1 => ?_
        have hboth := Does.two (h0.does hlen1 hpage0) (h1.does hlen2 hpage1) hsum
        have hdoes := (Does.after hlogs hboth).congr .rfl .rfl
          (forall₂_congr fun p _ => hlogs.carries_iff)
        exact .modify_bind (.pure ⟨hdoes.setXlation _, hprep True, rfl⟩)

theorem wp_writeRmwLinearQword (s : Cpu m) (val : BitVec 64)
    (hprep : Prepared m 8 True s.addressXlation) :
    wp (writeRmwLinearQword val) s (fun _ s' => s.Does s' true 8 False False
      (∀ p ∈ s.addressXlation.addrs, s.Carries p true)) fun _ _ => False := by
  refine .get_bind ?_
  generalize s.addressXlation = x at hprep
  cases hprep with
  | host offset paddr hpage hfast =>
    exact .modify ((touches_ramWrite s (by decide) offset paddr val).does (by decide) hpage).one
  | one paddr hpage hstable =>
    exact .modify ((touches_memWriteBytes s hstable val).does (by decide) hpage).one
  | two p0 p1 hlen1 hlen2 hsum hpage0 hstable0 hpage1 hstable1 =>
    exact .modify_bind (.modify (.two ((touches_memWriteBytes s hstable0 val).does hlen1 hpage0)
      ((touches_memWriteBytes _ hstable1 _).does hlen2 hpage1) hsum))

end RustyBox
