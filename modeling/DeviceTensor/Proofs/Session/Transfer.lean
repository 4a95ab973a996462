import DeviceTensor.Proofs.Session.Frame
import DeviceTensor.Proofs.Session.Ownership
import DeviceTensor.Proofs.Tensor.Transfer
set_option autoImplicit false

/-!
# Reading what was written

What a program writes into a tensor it reads back, and what it did not write it finds as it was.
Whether the host reaches the tensor directly or by way of a block of its own cannot be told from the
outcome of any sequence of writes and reads.
-/

namespace DeviceTensor

/-- The elements that a reply gives. -/
def Reply.elements? : Reply → Option (Sigma fun d => Array (Elem d))
  | .elements d xs => some ⟨d, xs⟩
  | _ => none

/-- Both replies refuse for the same reason, or neither does and they give the same elements. -/
structure Reply.SameOutcome (r r' : Reply) : Prop where
  failure : r'.failure? = r.failure?
  elements : r'.elements? = r.elements?

namespace Tensor

variable {s s' : Store} {t t' : Tensor} {d : ElemType}

/-- The tensors have the same type and the same bytes. -/
structure SameBytes (t : Tensor) (s : Store) (t' : Tensor) (s' : Store) : Prop where
  dtype : t'.dtype = t.dtype
  contents : t'.contents? s' = t.contents? s

/-- The number of bytes can be read off the bytes. -/
theorem byteSize_of_contents? (h : t.Owned s) :
    t.byteSize s = ((t.contents? s).map Array.size).getD 0 := by
  obtain ⟨_, hh, -⟩ := h.holds
  unfold byteSize contents?
  cases t.block with
  | none => rfl
  | some b => exact (hh.size_contents b).symm

namespace SameBytes

theorem count (h : t.SameBytes s t' s') (ht : t.Owned s) (ht' : t'.Owned s') :
    t'.count s' = t.count s := by
  unfold Tensor.count
  rw [byteSize_of_contents? ht, byteSize_of_contents? ht', h.contents, h.dtype]

theorem stored (h : t.SameBytes s t' s') (ht : t.Owned s) (ht' : t'.Owned s') (d : ElemType) :
    t'.stored d s' = t.stored d s := by
  have hcount := h.count ht ht'
  have hcontents := h.contents
  unfold contents? at hcontents
  unfold Tensor.stored
  rw [hcount]
  cases hb : t.block with
  | none =>
    rw [hb, Option.map_none, Option.map_eq_none_iff] at hcontents
    rw [hcontents]
  | some b =>
    rw [hb, Option.map_some] at hcontents
    obtain ⟨b', hb', hsame⟩ := Option.map_eq_some_iff.mp hcontents
    rw [hb']
    exact congrArg (Elem.decode d (t.count s)) hsame

theorem checkUpload (h : t.SameBytes s t' s') (ht : t.Owned s) (ht' : t'.Owned s')
    (d : ElemType) (n offset : Nat) :
    t'.checkUpload d n offset s' = t.checkUpload d n offset s := by
  unfold Tensor.checkUpload checkElementType
  rw [h.count ht ht', h.dtype]

end SameBytes

end Tensor

/-! ## Sequences of transfers -/

/-- A transfer between the host and a tensor. -/
inductive Transfer where
  | upload (d : ElemType) (xs : Array (Elem d)) (offset : Nat)
  | read (d : ElemType)

/-- The transfer to or from the tensor `name`. -/
def Transfer.command (name : String) : Transfer → Command
  | .upload d xs offset => .upload name d xs offset
  | .read d => .read name (some d)

namespace Session

variable {σ σ' : Session} {allowed : Command → Prop} {name name' : String} {t t' : Tensor}
  {d : ElemType}

/-- The slot `name` holds `t`, and no device refuses transfers of its elements. -/
structure Serves (σ : Session) (name : String) (t : Tensor) : Prop where
  sound : σ.Sound (fun _ => True) []
  slot : σ.tensors.get? name = some t
  served : t.Served σ.store

theorem Serves.ready (h : σ.Serves name t) : t.Ready σ.store :=
  ⟨⟨h.sound.valid t (Slots.mem_of_get? h.slot), _, h.sound.holds, held_subset h.sound h.slot⟩,
    h.served⟩

/-- Work that keeps the handles leaves the tensor in its slot, ready for the next transfer. -/
theorem Serves.keeps (h : σ.Serves name t) {s : Store} (hs : σ.store.Keeps s) :
    Serves { σ with store := s } name t :=
  ⟨h.sound.keeps hs, h.slot, h.served.mono h.ready.owned.valid hs.extend⟩

/-! ### One transfer -/

theorem step_upload (h : σ.Serves name t) (xs : Array (Elem d)) (offset : Nat) :
    step (.upload name d xs offset) σ =
      perform (t.upload xs offset) (fun () => reportTensor t) σ :=
  withTensor_some h.slot σ.store _

theorem step_read (h : σ.Serves name t) (d : ElemType) :
    step (.read name (some d)) σ =
      perform (t.read d) (fun xs σ => (.elements d xs, σ)) σ :=
  withTensor_some h.slot σ.store _

/-- An upload is answered by its check, and patches the bytes of the tensor if it is accepted. -/
theorem upload_outcome (h : σ.Serves name t) (xs : Array (Elem d)) (offset : Nat) :
    (step (.upload name d xs offset) σ).2.Serves name t ∧
      (step (.upload name d xs offset) σ).1.elements? = none ∧
      (t.checkUpload d xs.size offset σ.store = .ok () →
        (step (.upload name d xs offset) σ).1.failure? = none ∧
        t.contents? (step (.upload name d xs offset) σ).2.store =
          (t.contents? σ.store).map (Elem.patch xs offset)) ∧
      ∀ f, t.checkUpload d xs.size offset σ.store = .error f →
        (step (.upload name d xs offset) σ).1.failure? = some (.fault f) ∧
        t.contents? (step (.upload name d xs offset) σ).2.store = t.contents? σ.store := by
  rw [step_upload h]
  unfold perform
  have hkeeps := t.upload_keeps xs offset σ.store
  cases hcheck : t.checkUpload d xs.size offset σ.store with
  | ok _ =>
    obtain ⟨s, hrun, hcontents⟩ := Tensor.upload_of_accepted h.ready hcheck
    rw [hrun] at hkeeps ⊢
    exact ⟨h.keeps hkeeps, rfl, fun _ => ⟨rfl, hcontents⟩, fun _ hf => (nomatch hf)⟩
  | error f =>
    rw [Tensor.upload_of_refused hcheck]
    refine ⟨h, rfl, fun hok => (nomatch hok), fun f' hf => ?_⟩
    cases hf
    exact ⟨rfl, rfl⟩

/-- A read is answered by the elements of the tensor, or refused for their type. -/
theorem read_outcome (h : σ.Serves name t) (d : ElemType) :
    (step (.read name (some d)) σ).2.Serves name t ∧
      t.contents? (step (.read name (some d)) σ).2.store = t.contents? σ.store ∧
      (t.dtype = d → (step (.read name (some d)) σ).1 = .elements d (t.stored d σ.store)) ∧
      (t.dtype ≠ d → (step (.read name (some d)) σ).1 =
        .failed (.fault (.elementTypeMismatch d t.dtype))) := by
  rw [step_read h]
  unfold perform
  have hkeeps := t.read_keeps d σ.store
  have hcontents := Tensor.contents?_read h.ready.owned.valid d
  by_cases hd : t.dtype = d
  · subst hd
    obtain ⟨s, hrun⟩ := Tensor.read_of_ready h.ready
    rw [hrun] at hkeeps hcontents ⊢
    exact ⟨h.keeps hkeeps, hcontents, fun _ => rfl, fun hne => absurd rfl hne⟩
  · rw [Tensor.read_of_refused hd]
    exact ⟨h, rfl, fun heq => absurd heq hd, fun _ => rfl⟩

/-! ### Transfers of tensors with the same bytes -/

/-- The same transfer of two tensors with the same bytes has the same outcome and leaves them with
the same bytes. -/
theorem transfer_agrees (h : σ.Serves name t) (h' : σ'.Serves name' t')
    (hsame : t.SameBytes σ.store t' σ'.store) (x : Transfer) :
    (step (x.command name) σ).1.SameOutcome (step (x.command name') σ').1 ∧
      (step (x.command name) σ).2.Serves name t ∧ (step (x.command name') σ').2.Serves name' t' ∧
      t.SameBytes (step (x.command name) σ).2.store t' (step (x.command name') σ').2.store := by
  have ht := h.ready.owned
  have ht' := h'.ready.owned
  cases x with
  | upload d xs offset =>
    obtain ⟨hserves, hnone, hok, herror⟩ := upload_outcome h xs offset
    obtain ⟨hserves', hnone', hok', herror'⟩ := upload_outcome h' xs offset
    have hcheck := hsame.checkUpload ht ht' d xs.size offset
    unfold Transfer.command
    cases hanswer : t.checkUpload d xs.size offset σ.store with
    | ok _ =>
      obtain ⟨hreply, hcontents⟩ := hok hanswer
      obtain ⟨hreply', hcontents'⟩ := hok' (hcheck.trans hanswer)
      refine ⟨⟨hreply'.trans hreply.symm, hnone'.trans hnone.symm⟩, hserves, hserves',
        hsame.dtype, ?_⟩
      rw [hcontents, hcontents', hsame.contents]
    | error f =>
      obtain ⟨hreply, hcontents⟩ := herror f hanswer
      obtain ⟨hreply', hcontents'⟩ := herror' f (hcheck.trans hanswer)
      refine ⟨⟨hreply'.trans hreply.symm, hnone'.trans hnone.symm⟩, hserves, hserves',
        hsame.dtype, ?_⟩
      rw [hcontents, hcontents', hsame.contents]
  | read d =>
    obtain ⟨hserves, hcontents, hok, herror⟩ := read_outcome h d
    obtain ⟨hserves', hcontents', hok', herror'⟩ := read_outcome h' d
    unfold Transfer.command
    refine ⟨?_, hserves, hserves', hsame.dtype, ?_⟩
    · by_cases hd : t.dtype = d
      · rw [hok hd, hok' (hsame.dtype.trans hd), hsame.stored ht ht' d]
        exact ⟨rfl, rfl⟩
      · rw [herror hd, herror' (hsame.dtype ▸ hd), hsame.dtype]
        exact ⟨rfl, rfl⟩
    · rw [hcontents, hcontents', hsame.contents]

/-- Any sequence of transfers of two tensors with the same bytes has the same outcomes. -/
theorem run_transfers_agree (xs : List Transfer) (h : σ.Serves name t) (h' : σ'.Serves name' t')
    (hsame : t.SameBytes σ.store t' σ'.store) :
    List.Forall₂ Reply.SameOutcome (run (xs.map (·.command name)) σ).1
        (run (xs.map (·.command name')) σ').1 ∧
      t.SameBytes (run (xs.map (·.command name)) σ).2.store t'
        (run (xs.map (·.command name')) σ').2.store := by
  induction xs generalizing σ σ' with
  | nil => exact ⟨.nil, hsame⟩
  | cons x xs ih =>
    obtain ⟨houtcome, hserves, hserves', hsame'⟩ := transfer_agrees h h' hsame x
    obtain ⟨houtcomes, hfinal⟩ := ih hserves hserves' hsame'
    exact ⟨.cons houtcome houtcomes, hfinal⟩

/-! ## What is read back -/

/-- The elements of a tensor that was given elements: those where they were laid, and elsewhere the
ones from before. -/
theorem getElem?_stored_of_patched (h : t.Owned σ.store) (h' : t.Owned σ'.store)
    {xs : Array (Elem d)} {offset : Nat} (hd : t.dtype = d)
    (hcontents : t.contents? σ'.store = (t.contents? σ.store).map (Elem.patch xs offset)) :
    t.count σ'.store = t.count σ.store ∧ ∀ k, k < t.count σ.store →
      (t.stored d σ'.store)[k]? =
        if offset ≤ k ∧ k < offset + xs.size then xs[k - offset]?
        else (t.stored d σ.store)[k]? := by
  subst hd
  have hcount : t.count σ'.store = t.count σ.store := by
    unfold Tensor.count
    rw [Tensor.byteSize_of_contents? h, Tensor.byteSize_of_contents? h', hcontents]
    cases t.contents? σ.store with
    | none => rfl
    | some bytes => simp
  refine ⟨hcount, fun k hk => ?_⟩
  cases hb : t.block with
  | none =>
    have hempty : t.count σ.store = 0 := by
      unfold Tensor.count Tensor.byteSize
      rw [hb]
      exact Nat.zero_div _
    omega
  | some b =>
    obtain ⟨_, hh, -⟩ := h.holds
    have hfit : t.count σ.store * t.dtype.width ≤ (σ.store.block b).contents.size := by
      rw [hh.size_contents, ← Tensor.byteSize_of_block hb]
      exact Nat.div_mul_le_self _ _
    unfold Tensor.contents? at hcontents
    rw [hb] at hcontents
    have hbytes : (σ'.store.block b).contents = Elem.patch xs offset (σ.store.block b).contents :=
      Option.some.inj hcontents
    rw [Tensor.stored_of_block hb, Tensor.stored_of_block hb, hcount, hbytes]
    exact Elem.getElem?_decode_patch xs offset hfit hk

/-- A tensor whose memory was never bound holds zeros. -/
theorem stored_of_unbound (hu : t.isBound σ.store = false) (d : ElemType) :
    t.stored d σ.store = Array.replicate (t.count σ.store) 0 := by
  unfold Tensor.isBound at hu
  unfold Tensor.stored
  cases hb : t.block with
  | none =>
    have hempty : t.count σ.store = 0 := by
      unfold Tensor.count Tensor.byteSize
      rw [hb]
      exact Nat.zero_div _
    rw [hempty]
    rfl
  | some b =>
    rw [hb] at hu
    dsimp only at hu
    have hzeros : (σ.store.block b).contents = Array.replicate (σ.store.block b).size 0 := by
      unfold Block.contents
      cases hm : (σ.store.block b).memory with
      | unbound => rfl
      | released => rfl
      | bound bytes =>
        rw [hm] at hu
        cases hu
    dsimp only
    rw [hzeros, Elem.decode_zeros]

theorem size_stored_eq_count (t : Tensor) (d : ElemType) (s : Store) :
    (t.stored d s).size = t.count s := by
  unfold Tensor.stored
  cases hb : t.block with
  | none =>
    unfold Tensor.count Tensor.byteSize
    rw [hb]
    exact (Nat.zero_div _).symm
  | some b => exact Elem.size_decode d _ _

/-- Where no device refuses memory or a copy, an upload is accepted exactly if its elements have the
type of the tensor and fit behind the offset; then a read gives these elements where they were laid
and the previous ones elsewhere, which are zeros if memory was never bound.  Two tensors with the
same bytes, on whatever devices, answer any sequence of uploads and reads alike and end with the
same bytes. -/
theorem transfers_read_back (h : Reachable allowed σ) (ht : σ.tensors.get? name = some t)
    (hserved : t.Served σ.store) :
    (∀ (d : ElemType) (xs : Array (Elem d)) (offset : Nat),
      ((step (.upload name d xs offset) σ).1.failure? = none ↔
        t.dtype = d ∧ offset + xs.size ≤ t.count σ.store) ∧
      ((step (.upload name d xs offset) σ).1.failure? = none →
        ∃ ys, (step (.read name (some d)) (step (.upload name d xs offset) σ).2).1 =
            .elements d ys ∧
          ys.size = t.count σ.store ∧
          ∀ k, k < t.count σ.store →
            ys[k]? = if offset ≤ k ∧ k < offset + xs.size then xs[k - offset]?
              else (t.stored d σ.store)[k]?)) ∧
    (step (.read name (some t.dtype)) σ).1 = .elements t.dtype (t.stored t.dtype σ.store) ∧
    (t.isBound σ.store = false →
      t.stored t.dtype σ.store = Array.replicate (t.count σ.store) 0) ∧
    ∀ (others : Command → Prop) (σ' : Session) (name' : String) (t' : Tensor),
      Reachable others σ' → σ'.tensors.get? name' = some t' → t'.Served σ'.store →
      t.SameBytes σ.store t' σ'.store → ∀ xs : List Transfer,
        List.Forall₂ Reply.SameOutcome (run (xs.map (·.command name)) σ).1
          (run (xs.map (·.command name')) σ').1 ∧
        t.SameBytes (run (xs.map (·.command name)) σ).2.store t'
          (run (xs.map (·.command name')) σ').2.store := by
  have hserves : σ.Serves name t := ⟨h.sound, ht, hserved⟩
  refine ⟨fun d xs offset => ?_, ?_, fun hu => stored_of_unbound hu t.dtype, ?_⟩
  · obtain ⟨hafter, -, hok, herror⟩ := upload_outcome hserves xs offset
    have hiff := t.checkUpload_eq_ok_iff (d := d) hserves.ready.owned.valid xs.size offset
    have haccepted : (step (.upload name d xs offset) σ).1.failure? = none ↔
        t.checkUpload d xs.size offset σ.store = .ok () := by
      refine ⟨fun hnone => ?_, fun hcheck => (hok hcheck).1⟩
      cases hcheck : t.checkUpload d xs.size offset σ.store with
      | ok _ => rfl
      | error f =>
        rw [(herror f hcheck).1] at hnone
        cases hnone
    refine ⟨haccepted.trans hiff, fun hnone => ?_⟩
    have hcheck := haccepted.mp hnone
    obtain ⟨hd, -⟩ := hiff.mp hcheck
    obtain ⟨hcount, helements⟩ := getElem?_stored_of_patched hserves.ready.owned
      hafter.ready.owned hd (hok hcheck).2
    obtain ⟨-, -, hread, -⟩ := read_outcome hafter d
    exact ⟨_, hread hd, (size_stored_eq_count t d _).trans hcount, helements⟩
  · obtain ⟨-, -, hread, -⟩ := read_outcome hserves t.dtype
    exact hread rfl
  · intro others σ' name' t' h' ht' hserved' hsame xs
    exact run_transfers_agree xs hserves ⟨h'.sound, ht', hserved'⟩ hsame

/-- Elements are written into a tensor on a device that the host cannot reach, and read back; a
tensor with the same bytes on the host answers the same. -/
theorem transfers_of_remote_tensor_read_back :
    ∃ (σ : Session) (t t' : Tensor), (Reachable HostOnly σ ∧ t.Served σ.store ∧
        t'.Served σ.store ∧ t.SameBytes σ.store t' σ.store) ∧
      (σ.store.device t.device).addressable = false ∧
      (σ.store.device t'.device).addressable = true ∧
      (∃ ys, (step (.read "r" (some .int32)) (step (.upload "r" .int32 #[7, 8] 1) σ).2).1 =
          .elements .int32 ys ∧ ys[0]? = some 4 ∧ ys[1]? = some 7 ∧ ys[2]? = some 8) ∧
      (step (.upload "r" .int32 #[7, 8] 2) σ).1.failure? ≠ none ∧
      List.Forall₂ Reply.SameOutcome
        (run [.upload "r" .int32 #[7] 2, .upload "r" .char #[] 0, .read "r" (some .int32)] σ).1
        (run [.upload "a" .int32 #[7] 2, .upload "a" .char #[] 0, .read "a" (some .int32)] σ).1 := by
  let specs := [DeviceSpec.simulated "gpu" none { backend := .cuda, addressable := false }]
  let program := [Command.ofElements "a" [3] .int32 #[4, 5, 6], .duplicate "a" "r",
    .moveTo "r" "gpu"]
  let σ := (run program (start specs)).2
  let t : Tensor := ⟨[3], .int32, false, 1, some 2⟩
  let t' : Tensor := ⟨[3], .int32, false, 0, some 0⟩
  let xs : List Transfer := [.upload .int32 #[7] 2, .upload .char #[] 0, .read .int32]
  have hprogram : ∀ c ∈ program, HostOnly c := by
    intro c hc
    simp only [program, List.mem_cons, List.not_mem_nil, or_false] at hc
    rcases hc with rfl | rfl | rfl <;> trivial
  have hσ : Reachable HostOnly σ := (reachable_start specs).run hprogram
  obtain ⟨hr, ha, hcount, hsize, hsize', hremote, hdirect, hbytes, hbytes', hold⟩ :
      σ.tensors.get? "r" = some t ∧ σ.tensors.get? "a" = some t' ∧ t.count σ.store = 3 ∧
      t.byteSize σ.store = 12 ∧ t'.byteSize σ.store = 12 ∧
      (σ.store.device t.device).addressable = false ∧
      (σ.store.device t'.device).addressable = true ∧
      t.contents? σ.store = some #[4, 0, 0, 0, 5, 0, 0, 0, 6, 0, 0, 0] ∧
      t'.contents? σ.store = some #[4, 0, 0, 0, 5, 0, 0, 0, 6, 0, 0, 0] ∧
      (t.stored .int32 σ.store)[0]? = some 4 := by decide +kernel
  obtain ⟨hcpp, hcuda⟩ : σ.store.backend Store.hostMemory = .cpp ∧
      σ.store.backend t.device = .cuda := by decide +kernel
  have hhost : (σ.store.device Store.hostMemory).answers = Device.hostAnswers none :=
    run_start_answers specs program Store.hostMemory
  have hgpu : (σ.store.device t.device).answers =
      Device.Simulation.answers { backend := .cuda, addressable := false } :=
    run_start_answers specs program t.device
  have hlends (n : Nat) (hn : n ≤ 12) : (σ.store.device Store.hostMemory).Supplies n :=
    Device.supplies_of_host hhost (Nat.lt_of_le_of_lt hn (by decide))
  have hserved' : t'.Served σ.store :=
    ⟨hsize'.symm ▸ hlends 12 (by decide), fun h => nomatch hdirect.symm.trans h⟩
  have hserved : t.Served σ.store := by
    refine ⟨fun earlier => ?_, fun _ => ⟨hdirect, fun n hn => hlends n (hsize ▸ hn), ?_, ?_⟩⟩
    · rw [hgpu, hsize]
      rfl
    · refine ⟨fun n earlier => ?_, fun earlier => ?_⟩
      · rw [hcuda, if_neg (by decide), hgpu]
        rfl
      · rw [hcuda, if_neg (by decide), hgpu]
        rfl
    · refine ⟨fun n earlier => ?_, fun earlier => ?_⟩
      · rw [hcpp, if_pos rfl, hgpu]
        rfl
      · rw [hcpp, if_pos rfl, hgpu]
        rfl
  have hdtype : t'.dtype = t.dtype := rfl
  have hsame : t.SameBytes σ.store t' σ.store := ⟨hdtype, hbytes'.trans hbytes.symm⟩
  obtain ⟨hwrites, -, -, hagree⟩ := transfers_read_back hσ hr hserved
  obtain ⟨haccepts, hback⟩ := hwrites .int32 #[7, 8] 1
  obtain ⟨ys, hread, -, helements⟩ := hback (haccepts.mpr ⟨rfl, by rw [hcount]; decide⟩)
  obtain ⟨hrejects, -⟩ := hwrites .int32 #[7, 8] 2
  rw [hcount] at helements hrejects
  refine ⟨σ, t, t', ⟨hσ, hserved, hserved', hsame⟩, hremote, hdirect, ⟨ys, hread, ?_, ?_, ?_⟩,
    fun hnone => ?_, (hagree HostOnly σ "a" t' hσ ha hserved' hsame xs).1⟩
  · rw [helements 0 (by decide), if_neg (by decide), hold]
  · rw [helements 1 (by decide), if_pos (by decide)]
    rfl
  · rw [helements 2 (by decide), if_pos (by decide)]
    rfl
  · exact absurd (hrejects.mp hnone).2 (by decide)

end Session

end DeviceTensor
