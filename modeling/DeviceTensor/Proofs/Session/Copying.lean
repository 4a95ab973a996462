import DeviceTensor.Proofs.Session.Ownership
import DeviceTensor.Proofs.Session.Transparency
import DeviceTensor.Proofs.Tensor.Splicing
set_option autoImplicit false

/-!
# Copies in a session

The blocks that a session holds, and the tensors on them, are copied as their sizes allow.  Both
ranges of a copy may lie in one block and overlap.
-/

namespace DeviceTensor.Session

open DeviceTensor.Action

variable {allowed : Command → Prop} {σ : Session}

/-- Between blocks whose devices serve them, a copy of bytes succeeds exactly if both ranges lie in
their blocks, and has then moved these bytes and no others; a host device is never asked to copy
beyond host memory.  A copy of elements between tensors of one type succeeds exactly if both ranges
lie in the tensors, and has then moved these elements and no others.  A copy of all bytes moves as
many as both tensors have. -/
theorem copies_are_bounded_moves (h : Reachable allowed σ) :
    (∀ (dst src : Block.Range) (n : Nat), dst.block ∈ σ.handles → src.block ∈ σ.handles →
      σ.store.Serves dst.block → σ.store.Serves src.block →
      (Block.copy dst src n).Moves σ.store
        (dst.offset + n ≤ (σ.store.block dst.block).size ∧
          src.offset + n ≤ (σ.store.block src.block).size)
        (Block.MovedBytes dst src n σ.store)) ∧
    (∀ (s : Store) (dst src : BlockId), s.backend (Block.copyExecutor dst src s) = .cpp →
      Block.directionOf dst src s = .hostToHost) ∧
    ∀ t ∈ σ.tensors.values, ∀ o ∈ σ.tensors.values,
      (∀ b c, t.block = some b → o.block = some c → σ.store.Serves b → σ.store.Serves c →
        (t.dtype = o.dtype → ∀ num i j, (t.copyRange o num i j).Moves σ.store
          (i + num ≤ t.count σ.store ∧ j + num ≤ o.count σ.store)
          (fun s' => t.MovedElements o num i j σ.store s' ∧
            ∀ b', b' ≠ b → (s'.block b').contents = (σ.store.block b').contents)) ∧
        (t.copyFrom o).Moves σ.store True (Block.MovedBytes ⟨b, 0⟩ ⟨c, 0⟩
          (min (t.byteSize σ.store) (o.byteSize σ.store)) σ.store)) ∧
      (t.block = none ∨ o.block = none → t.copyFrom o σ.store = (.ok (), σ.store)) := by
  have hh : σ.store.Holds σ.handles := h.sound.holds
  refine ⟨fun dst src n hdst _ hd hs => Block.copy_moves dst src n hh hdst hd hs,
    fun s dst src => Block.directionOf_of_host, fun t ht o ho => ⟨?_, ?_⟩⟩
  · intro b c hb hc hserves hserves'
    have hmem : b ∈ σ.handles := by
      refine List.mem_append_left _ (List.mem_flatMap.mpr ⟨t, ht, ?_⟩)
      simp [Tensor.held, hb]
    have htv := h.sound.valid t ht
    have hov := h.sound.valid o ho
    exact ⟨fun hd num i j =>
        Tensor.copyRange_moves htv hov hb hc hd hh hmem hserves hserves' num i j,
      Tensor.copyFrom_moves hb hc hh hmem hserves hserves'⟩
  · intro hbare
    exact Tensor.copyFrom_of_bare hbare σ.store

/-- Bytes are moved between ranges of one block that overlap, and elements between ranges of two
tensors on one block.  Bytes reach the block of a remote device as long as they fit into it. -/
theorem overlapping_copies_are_bounded_moves :
    ∃ (σ : Session) (t o : Tensor), (Reachable HostOnly σ ∧ t ∈ σ.tensors.values ∧
        o ∈ σ.tensors.values ∧ t.block = some 0 ∧ o.block = some 0 ∧ t.dtype = o.dtype ∧
        ∀ b ∈ σ.handles, σ.store.Serves b) ∧
      (∃ s', Block.copy ⟨1, 2⟩ ⟨1, 0⟩ 3 σ.store = (.ok (), s') ∧
        (s'.block 1).contents[2]? = some 5 ∧ (s'.block 1).contents[4]? = some 7 ∧
        (s'.block 1).contents[1]? = some 6) ∧
      (∃ s', Block.copy ⟨2, 1⟩ ⟨1, 0⟩ 3 σ.store = (.ok (), s') ∧
        (s'.block 2).contents[3]? = some 7) ∧
      (∃ f, Block.copy ⟨2, 2⟩ ⟨1, 0⟩ 3 σ.store = (.error f, σ.store)) ∧
      (∃ s', t.copyRange o 2 1 0 σ.store = (.ok (), s') ∧
        (t.stored .int32 s')[1]? = some 7 ∧ (t.stored .int32 s')[2]? = some 8) ∧
      ∃ s', t.copyFrom o σ.store = (.ok (), s') := by
  let specs := [DeviceSpec.simulated "gpu" none { backend := .cuda, addressable := false }]
  let program := [Command.ofElements "t" [3] .int32 #[7, 8, 9], .share "t" "o",
    .newBlock "h" "default" 6, .writeBlock "h" .char #[5, 6, 7], .newBlock "g" "gpu" 4]
  let σ := (run program (start specs)).2
  let t : Tensor := ⟨[3], .int32, false, 0, some 0⟩
  have hprogram : ∀ c ∈ program, HostOnly c := by
    intro c hc
    simp only [program, List.mem_cons, List.not_mem_nil, or_false] at hc
    rcases hc with rfl | rfl | rfl | rfl | rfl <;> trivial
  have hσ : Reachable HostOnly σ := (reachable_start specs).run hprogram
  have hhost : (σ.store.device 0).answers = Device.hostAnswers none :=
    run_start_answers specs program 0
  have hgpu : (σ.store.device 1).answers =
      Device.Simulation.answers { backend := .cuda, addressable := false } :=
    run_start_answers specs program 1
  obtain ⟨hvalues, hhandles, hcpp, hplaces, hbytes, hsizes, helements, hcount⟩ :
      σ.tensors.values = [t, t] ∧ σ.handles = [0, 0, 2, 1] ∧ (σ.store.device 0).backend = .cpp ∧
      ((σ.store.block 0).device = 0 ∧ (σ.store.block 1).device = 0 ∧
        (σ.store.block 2).device = 1) ∧
      (σ.store.block 1).contents = #[5, 6, 7, 0, 0, 0] ∧
      ((σ.store.block 0).size = 12 ∧ (σ.store.block 1).size = 6 ∧ (σ.store.block 2).size = 4) ∧
      t.stored .int32 σ.store = #[7, 8, 9] ∧ t.count σ.store = 3 := by decide +kernel
  clear_value σ
  obtain ⟨hplace0, hplace1, hplace2⟩ := hplaces
  obtain ⟨hsize0, hsize, hsize'⟩ := hsizes
  have hlocal (b : BlockId) (hb : (σ.store.block b).device = 0)
      (hn : (σ.store.block b).size < Device.hostCapacity) : σ.store.Serves b := by
    have howner : σ.store.owner b = σ.store.device 0 := congrArg σ.store.device hb
    exact Store.serves_of_host (howner ▸ hhost) (howner ▸ hcpp) (Nat.lt_trans hn (by decide))
      (Device.limitedGrants_of_lt hn)
  have hserves : ∀ b ∈ σ.handles, σ.store.Serves b := by
    intro b hb
    rw [hhandles] at hb
    simp only [List.mem_cons, List.not_mem_nil, or_false] at hb
    rcases hb with rfl | rfl | rfl | rfl
    · exact hlocal 0 hplace0 (by rw [hsize0]; decide)
    · exact hlocal 0 hplace0 (by rw [hsize0]; decide)
    · have howner : σ.store.owner 2 = σ.store.device 1 := congrArg σ.store.device hplace2
      refine Store.serves_of_simulated (howner ▸ hgpu) rfl rfl ?_ ?_ <;>
        · rw [hsize']
          decide
    · exact hlocal 1 hplace1 (by rw [hsize]; decide)
  have ht : t ∈ σ.tensors.values := hvalues ▸ List.mem_cons_self
  have hmem (b : BlockId) (hb : b ∈ [0, 0, 2, 1]) : b ∈ σ.handles := hhandles ▸ hb
  obtain ⟨hcopies, -, htensors⟩ := copies_are_bounded_moves hσ
  obtain ⟨hmoves, -⟩ := htensors t ht t ht
  have h1 := hserves 1 (hmem 1 (by decide))
  have h0 := hserves 0 (hmem 0 (by decide))
  have h2 := hserves 2 (hmem 2 (by decide))
  have hwithin := hcopies ⟨1, 2⟩ ⟨1, 0⟩ 3 (hmem 1 (by decide)) (hmem 1 (by decide)) h1 h1
  have hremote := hcopies ⟨2, 1⟩ ⟨1, 0⟩ 3 (hmem 2 (by decide)) (hmem 1 (by decide)) h2 h1
  have hbehind := hcopies ⟨2, 2⟩ ⟨1, 0⟩ 3 (hmem 2 (by decide)) (hmem 1 (by decide)) h2 h1
  obtain ⟨hrange, hall⟩ := hmoves 0 0 rfl rfl h0 h0
  obtain ⟨s', hrun, hmoved⟩ := hwithin.succeeds (by rw [hsize]; decide)
  obtain ⟨r, hrunr, hremoved⟩ := hremote.succeeds (by rw [hsize, hsize']; decide)
  obtain ⟨f, hfails, -⟩ := hbehind.fails (by rw [hsize, hsize']; decide)
  obtain ⟨u, hrun', helts, -⟩ := (hrange rfl 2 1 0).succeeds (by rw [hcount]; decide)
  obtain ⟨v, hrun'', -⟩ := hall.succeeds trivial
  have hb := hmoved.inside
  have hout := hmoved.outside
  have hr := hremoved.inside
  have he := helts.inside
  rw [hbytes] at hb hout hr
  rw [helements] at he
  exact ⟨σ, t, t, ⟨hσ, ht, ht, rfl, rfl, rfl, hserves⟩,
    ⟨s', hrun, hb 0 (by decide), hb 2 (by decide), hout 1 (by decide)⟩,
    ⟨r, hrunr, hr 2 (by decide)⟩, ⟨f, hfails⟩, ⟨u, hrun', he 0 (by decide), he 1 (by decide)⟩,
    ⟨v, hrun''⟩⟩

end DeviceTensor.Session
