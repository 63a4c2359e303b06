-- SUMMARY: Decoders of byte streams that restore an object, and how their round trips compose.
import RustyBox.Lib.Exec

/-!
# Decoders

A decoder reads bytes off the front of a stream while it holds the object it restores. `Decodes`
says that the decoder reads exactly these bytes, whatever follows them, and leaves the object
alone; it composes along the decoder's steps as the bytes do. `untouched` is the frame of the
steps that only read: a decoder that assigns to its object after the last of them either changes
it as a whole or not at all.
-/

namespace Lib

/-- The object that is restored, and the bytes that are still to be read. -/
structure Stream (σ : Type) where
  self : σ
  input : List UInt8

abbrev Decode (ε σ α : Type) := EStateM ε (Stream σ) α

variable {ε σ α β : Type}

/-- The next `n` bytes, all or none of them. -/
def takeBytes (short : ε) (n : Nat) : Decode ε σ (List UInt8) := fun s =>
  if n ≤ s.input.length then .ok (s.input.take n) { s with input := s.input.drop n }
  else .error short s

/-- A check that fails with `e` when `c` holds. -/
def refuseIf (c : Prop) [Decidable c] (e : ε) : Decode ε σ Unit := fun s =>
  if c then .error e s else .ok () s

/-- A check that does not look at the stream. -/
def fromExcept (x : Except ε α) : Decode ε σ α := fun s =>
  match x with
  | .ok a => .ok a s
  | .error e => .error e s

/-- The object as it is before it is restored. -/
def live : Decode ε σ σ := fun s => .ok s.self s

/-- `n` items, one after the other. -/
def times (m : Decode ε σ α) : Nat → Decode ε σ (List α)
  | 0 => pure []
  | n + 1 => do
    let a ← m
    let rest ← times m n
    pure (a :: rest)

/-- One item for each member of a list. -/
def each (m : β → Decode ε σ α) : List β → Decode ε σ (List α)
  | [] => pure []
  | b :: bs => do
    let a ← m b
    let rest ← each m bs
    pure (a :: rest)

/-- The decoder, and then the assignment of what it returned. -/
def restoring (m : Decode ε σ α) (put : α → σ → σ) : Decode ε σ Unit := do
  let a ← m
  modify fun s => { s with self := put a s.self }

/-! ## Round trips -/

/-- The decoder reads `bytes` and returns `a`. -/
def Decodes (m : Decode ε σ α) (self : σ) (bytes : List UInt8) (a : α) : Prop :=
  ∀ rest, m.run ⟨self, bytes ++ rest⟩ = .ok a ⟨self, rest⟩

section

variable {m : Decode ε σ α} {self : σ} {a : α} {bytes : List UInt8}

theorem Decodes.pure (a : α) : Decodes (Pure.pure a : Decode ε σ α) self [] a := fun _ => rfl

theorem Decodes.run_bind (hm : Decodes m self bytes a) (f : α → Decode ε σ β) (rest : List UInt8) :
    (m >>= f).run ⟨self, bytes ++ rest⟩ = (f a).run ⟨self, rest⟩ :=
  run_bind_of_ok (hm rest)

variable {f : α → Decode ε σ β}

theorem Decodes.bind {b : β} {bytes' : List UInt8} (hm : Decodes m self bytes a)
    (hf : Decodes (f a) self bytes' b) : Decodes (m >>= f) self (bytes ++ bytes') b := by
  intro rest
  rw [List.append_assoc, hm.run_bind]
  exact hf rest

/-- A step that reads nothing. -/
theorem Decodes.bind_nil {b : β} (hm : Decodes m self [] a)
    (hf : Decodes (f a) self bytes b) : Decodes (m >>= f) self bytes b :=
  hm.bind hf

/-- The last step that reads. -/
theorem Decodes.bind_last {b : β} (hm : Decodes m self bytes a)
    (hf : Decodes (f a) self [] b) : Decodes (m >>= f) self bytes b := by
  have h := hm.bind hf
  rwa [List.append_nil] at h

theorem Decodes.map (hm : Decodes m self bytes a) (f : α → β) :
    Decodes (m >>= fun a => Pure.pure (f a)) self bytes (f a) :=
  hm.bind_last (Decodes.pure (f a))

theorem decodes_takeBytes {short : ε} {n : Nat} (h : bytes.length = n) :
    Decodes (takeBytes short n) self bytes bytes := by
  intro rest
  subst h
  show (if _ then _ else _) = _
  rw [if_pos (by simp), List.take_left', List.drop_left'] <;> rfl

theorem decodes_refuseIf {c : Prop} [Decidable c] {e : ε} (h : ¬ c) :
    Decodes (refuseIf c e) self [] () := by
  intro rest
  show (if c then _ else _) = _
  rw [if_neg h]
  rfl

/-- A check that passes. -/
theorem Decodes.check {c : Prop} [Decidable c] {e : ε} {f : Unit → Decode ε σ β} {b : β} (h : ¬ c)
    (hf : Decodes (f ()) self bytes b) : Decodes (refuseIf c e >>= f) self bytes b :=
  (decodes_refuseIf h).bind_nil hf

theorem decodes_fromExcept {x : Except ε α} (h : x = .ok a) : Decodes (fromExcept x) self [] a := by
  intro rest
  rw [h]
  rfl

theorem decodes_live : Decodes (live : Decode ε σ σ) self [] self := fun _ => rfl

theorem decodes_times {as : List α} {chunks : List (List UInt8)} {n : Nat} (hn : as.length = n)
    (h : List.Forall₂ (fun a bytes => Decodes m self bytes a) as chunks) :
    Decodes (times m n) self chunks.flatten as := by
  subst hn
  induction h with
  | nil => exact Decodes.pure []
  | @cons a chunk as chunks ha _ ih => exact ha.bind (ih.map (a :: ·))

theorem decodes_each {m : β → Decode ε σ α} {chunk : β → List UInt8} {item : β → α}
    (h : ∀ b, Decodes (m b) self (chunk b) (item b)) (bs : List β) :
    Decodes (each m bs) self (bs.map chunk).flatten (bs.map item) := by
  induction bs with
  | nil => exact Decodes.pure []
  | cons b bs ih => exact (h b).bind (ih.map (item b :: ·))

theorem run_restoring {put : α → σ → σ} (hm : Decodes m self bytes a) (rest : List UInt8) :
    (restoring m put).run ⟨self, bytes ++ rest⟩ = .ok () ⟨put a self, rest⟩ := by
  rw [restoring, hm.run_bind]
  rfl

theorem run_refuseIf {c : Prop} [Decidable c] {e : ε} (h : c) (f : Unit → Decode ε σ β)
    (s : Stream σ) : (refuseIf c e >>= f).run s = .error e s := by
  refine run_bind_of_error ?_
  show (if c then _ else _) = _
  rw [if_pos h]

end

/-! ## Refusals -/

/-- The decoder fails on `bytes`, whatever follows them. -/
def Refuses (m : Decode ε σ α) (self : σ) (bytes : List UInt8) (e : ε) : Prop :=
  ∀ rest, ∃ s, m.run ⟨self, bytes ++ rest⟩ = .error e s

section

variable {m : Decode ε σ α} {self : σ} {a : α} {bytes bytes' : List UInt8} {e : ε}

theorem Decodes.bind_refuses {f : α → Decode ε σ β} (hm : Decodes m self bytes a)
    (hf : Refuses (f a) self bytes' e) : Refuses (m >>= f) self (bytes ++ bytes') e := by
  intro rest
  rw [List.append_assoc, hm.run_bind]
  exact hf rest

theorem Refuses.bind (hm : Refuses m self bytes e) (f : α → Decode ε σ β) :
    Refuses (m >>= f) self (bytes ++ bytes') e := by
  intro rest
  obtain ⟨s, hs⟩ := hm (bytes' ++ rest)
  rw [List.append_assoc]
  exact ⟨s, run_bind_of_error hs⟩

end

/-! ## Failures -/

/-- What a step that only reads does to the object. -/
def untouched : Frame (Stream σ) := .fixing Stream.self

theorem untouched_takeBytes (short : ε) (n : Nat) :
    untouched.Holds (takeBytes short n : Decode ε σ (List UInt8)) := by
  intro s
  show Stream.self (finalState (if _ then _ else _)) = _
  split <;> rfl

theorem untouched_refuseIf (c : Prop) [Decidable c] (e : ε) :
    untouched.Holds (refuseIf c e : Decode ε σ Unit) := by
  intro s
  show Stream.self (finalState (if _ then _ else _)) = _
  split <;> rfl

theorem untouched_fromExcept (x : Except ε α) : untouched.Holds (fromExcept x : Decode ε σ α) := by
  intro s
  cases x <;> rfl

theorem untouched_live : untouched.Holds (live : Decode ε σ σ) := fun _ => rfl

theorem untouched_times {m : Decode ε σ α} (hm : untouched.Holds m) (n : Nat) :
    untouched.Holds (times m n) := by
  induction n with
  | zero => exact .pure []
  | succ n ih => exact hm.bind fun a => ih.bind fun rest => .pure (a :: rest)

/-- Nothing is assigned before everything was read. -/
theorem self_of_restoring_error {m : Decode ε σ α} {put : α → σ → σ} (hm : untouched.Holds m)
    {s s' : Stream σ} {e : ε} (h : (restoring m put).run s = .error e s') : s'.self = s.self := by
  rcases run_bind_error.mp h with hread | ⟨_, _, _, hput⟩
  · exact hm.error hread
  · exact nomatch hput

end Lib
