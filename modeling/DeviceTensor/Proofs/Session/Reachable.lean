import DeviceTensor.Proofs.Routine.Catalog
import DeviceTensor.Proofs.Session.Sound
set_option autoImplicit false

/-!
# Reachable sessions

A session is reachable if commands lead to it from a session without tensors and blocks, on any
devices and with any library.  Reachable sessions are sound, so that every tensor of theirs is valid.
As long as no probe is registered, their registry is on the host.
-/

namespace DeviceTensor

/-! ## Reachability -/

namespace Session

/-- The session on the given devices before its first command. -/
def onDevices (devices : Array Device) (library : Library := .plain) : Session where
  store :=
    { devices := devices, blocks := #[], registry := Registry.hostRegistry, library := library }
  tensors := .empty
  blocks := .empty

/-- A device in host memory that serves its first request, and from then on grants no memory. -/
def grantingOnce : Device where
  name := "small"
  backend := .cpp
  addressable := true
  answers
    | [], _ => .ok ()
    | _ :: _, .allocate size => .error (.outOfMemory size)
    | _ :: _, _ => .ok ()
  stream := { seed := 0 }

/-- The session on the default host and one more device. -/
def besideHost (d : Device) : Session := onDevices #[.host "default" none { seed := 0 }, d]

/-- Commands that `allowed` admits lead to the session; a command may fail, and leaves then what it
leaves. -/
inductive Reachable (allowed : Command → Prop) : Session → Prop where
  | start (devices : Array Device) (library : Library) :
      Reachable allowed (onDevices devices library)
  | step {σ : Session} (c : Command) : Reachable allowed σ → allowed c →
      Reachable allowed (step c σ).2

variable {allowed : Command → Prop} {σ : Session}

theorem reachable_start (specs : List DeviceSpec) : Reachable allowed (start specs) :=
  .start _ .plain

theorem reachable_besideHost (d : Device) : Reachable allowed (besideHost d) := .start _ .plain

/-- Programs lead from reachable sessions to reachable ones. -/
theorem Reachable.run {cs : List Command} (h : Reachable allowed σ)
    (hcs : ∀ c ∈ cs, allowed c) : Reachable allowed (run cs σ).2 := by
  induction cs generalizing σ with
  | nil => exact h
  | cons c cs ih =>
    have hstep := h.step c (hcs c List.mem_cons_self)
    exact ih hstep fun c' hc' => hcs c' (List.mem_cons_of_mem c hc')

variable {P : Registry Routine → Prop}

theorem onDevices_sound (devices : Array Device) (library : Library)
    (hP : P Registry.hostRegistry) : (onDevices devices library).Sound P [] where
  registry := hP
  tensors := List.nodup_nil
  blocks := List.nodup_nil
  valid t ht := by cases ht
  holds :=
    { lt := fun b hb => by cases hb
      handles := fun b hb => absurd hb (Nat.not_lt_zero b)
      bound := fun b bytes hm => by
        rw [Store.memory_of_le (Nat.zero_le b)] at hm
        cases hm
      released := fun b hm => by
        rw [Store.memory_of_le (Nat.zero_le b)] at hm
        cases hm }

/-- Reachable sessions are sound, with any condition on the registry that holds at the start and
that the commands keep. -/
theorem Reachable.sound_of_keeps (h : Reachable allowed σ) (hP : P Registry.hostRegistry)
    (hc : ∀ c r, allowed c → P r → P (registers c r)) : σ.Sound P [] := by
  induction h with
  | start devices library => exact onDevices_sound devices library hP
  | step c _ hallowed ih => exact step_sound ih c (hc c _ hallowed)

theorem Reachable.sound (h : Reachable allowed σ) : σ.Sound (fun _ => True) [] :=
  h.sound_of_keeps trivial fun _ _ _ _ => trivial

/-- The command registers host routines only. -/
def HostOnly : Command → Prop
  | .registerProbe _ _ => False
  | _ => True

/-- As long as no probe is registered, the registry is on the host. -/
theorem Reachable.onHost (h : Reachable HostOnly σ) : σ.Sound Registry.OnHost [] := by
  refine h.sound_of_keeps Registry.onHost_hostRegistry fun c r hc hr => ?_
  cases c with
  | registerCatalog backend => exact hr.registerCatalog backend
  | registerProbe key p => exact hc.elim
  | _ => exact hr

/-- What a tensor of a reachable session says about itself is true of its block. -/
theorem tensor_describes_block (h : Reachable allowed σ) {t : Tensor}
    (ht : t ∈ σ.tensors.values) :
    (∀ b, t.block = some b →
      (σ.store.block b).size = t.shape.prod * t.dtype.width ∧
      ((∀ n ∈ t.shape, n < Size.limit) → t.shape.product 0 0 = .ok t.shape.prod) ∧
      t.count σ.store = t.shape.prod ∧
      t.dtype.width ∣ t.byteSize σ.store ∧
      (σ.store.block b).device = t.device) ∧
    (t.block = none → t.shape = [] ∧ t.transposed = false) ∧
    (t.transposed = true → t.rank = 2) := by
  have hv := h.sound.valid t ht
  refine ⟨fun b hb => ?_, hv.bare, hv.rank⟩
  have hf := hv.filled b hb
  refine ⟨hf.size, hf.product_eq, hf.count hb, ?_, hf.place⟩
  unfold Tensor.byteSize
  rw [hb]
  exact ⟨t.shape.prod, hf.size.trans (Nat.mul_comm _ _)⟩

/-- A transposed view of a matrix of six elements. -/
theorem transposed_view_describes_block :
    ∃ (σ : Session) (t : Tensor), Reachable (fun _ => True) σ ∧ t ∈ σ.tensors.values ∧
      t.transposed = true ∧ t.rank = 2 ∧ t.block = some 0 ∧ t.count σ.store = 6 ∧
      (σ.store.block 0).size = 6 * 4 ∧ (σ.store.block 0).device = t.device := by
  let program := [Command.create "a" [2, 3] "default" .float32, .transpose "a" "b"]
  let σ := (run program (start [])).2
  let t : Tensor := ⟨[3, 2], .float32, true, 0, some 0⟩
  have hσ : Reachable (fun _ => True) σ := (reachable_start []).run fun _ _ => trivial
  have hvalues : σ.tensors.values = [t, ⟨[2, 3], .float32, false, 0, some 0⟩] := by
    decide +kernel
  have ht : t ∈ σ.tensors.values := hvalues ▸ List.mem_cons_self
  obtain ⟨hblock, -, hrank⟩ := tensor_describes_block hσ ht
  obtain ⟨hsize, -, hcount, -, hplace⟩ := hblock 0 rfl
  exact ⟨σ, t, hσ, ht, rfl, hrank rfl, rfl, hcount, hsize, hplace⟩

end Session

end DeviceTensor
