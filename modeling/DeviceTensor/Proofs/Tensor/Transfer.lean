import DeviceTensor.Proofs.Element.Patch
import DeviceTensor.Proofs.Tensor.Migration
import DeviceTensor.Proofs.Tensor.Replacement
set_option autoImplicit false

/-!
# Transfers between the host and a tensor

Elements reach a tensor directly if the host can reach its device, and by way of a block on the host
device if not.  As long as no device refuses memory or a copy, both ways accept the same transfers,
patch the same bytes, and read back the elements of the block.
-/

namespace DeviceTensor

open DeviceTensor.Action

/-! ## Devices that serve a transfer -/

/-- Copies from device `src` to device `dst` are performed and waited for, whatever the devices were
asked for before. -/
structure Store.Conveys (s : Store) (dst src : DeviceId) : Prop where
  performs : ∀ n earlier, (s.device (if s.backend dst = .cpp then src else dst)).answers earlier
    (.copy n (.between (s.backend src) (s.backend dst))) = .ok ()
  waits : ∀ earlier,
    (s.device (if s.backend dst = .cpp then src else dst)).answers earlier .wait = .ok ()

theorem Store.Conveys.mono {s s' : Store} {dst src : DeviceId} (h : s.Conveys dst src)
    (hs : s.Extends s') : s'.Conveys dst src := by
  have hsame (e : DeviceId) := Device.answers_of_description (hs.device e)
  constructor
  · rw [hs.backend, hs.backend, hsame]
    exact h.performs
  · rw [hs.backend, hsame]
    exact h.waits

theorem Device.Supplies.mono {s s' : Store} {d : DeviceId} {n : Nat}
    (h : (s.device d).Supplies n) (hs : s.Extends s') : (s'.device d).Supplies n :=
  (Device.supplies_of_description (hs.device d)).mpr h

namespace Block

variable {s : Store} {b : BlockId} {d : ElemType}

/-- A copy succeeds if its blocks can have memory and its devices serve it. -/
theorem copy_of_served {dst src : Range} {n : Nat} (hcheck : checkCopy dst src n s = .ok ())
    (hdst : s.Supplies dst.block) (hsrc : s.Supplies src.block)
    (h : s.Conveys (s.block dst.block).device (s.block src.block).device) :
    ∃ s', copy dst src n s = (.ok (), s') := by
  by_cases hn : n = 0
  · subst hn
    exact ⟨s, copy_of_zero hcheck⟩
  · obtain ⟨s₁, hbind, hbinds₁⟩ := bindMemory_of_supplies hdst
    obtain ⟨s₂, hbind', hbinds₂⟩ := bindMemory_of_supplies (hsrc.of_binds hbinds₁)
    have hanswers := Device.answers_of_description
      ((hbinds₁.trans hbinds₂).evolves.device (copyExecutor dst.block src.block s))
    have hcopied : copied (s₂.device (copyExecutor dst.block src.block s))
        (directionOf dst.block src.block s) n = .ok () := by
      have hperforms (earlier : List Request) :
          (s.device (copyExecutor dst.block src.block s)).answers earlier
            (.copy n (directionOf dst.block src.block s)) = .ok () := h.performs n earlier
      have hwaits (earlier : List Request) :
          (s.device (copyExecutor dst.block src.block s)).answers earlier .wait = .ok () :=
        h.waits earlier
      unfold copied Device.answer Device.after
      dsimp only
      rw [hanswers, hperforms, hwaits]
      rfl
    rw [copy_eq hcheck hn, bind_apply_of_ok hbind, bind_apply_of_ok hbind']
    exact ⟨_, Prod.ext ((moveBytes_result _ _ dst src n s₂).trans hcopied) rfl⟩

/-- A view that was taken has bound the memory of its block. -/
theorem view_of_ok {count : Nat} {xs : Array (Elem d)} {s' : Store} (hb : b < s.blocks.size)
    (h : view b d count s = (.ok xs, s')) :
    xs = Elem.decode d count (s.block b).contents ∧ s.Binds s' ∧
      (s'.block b).memory ≠ .unbound := by
  have hbinds := (view_reads (List.mem_singleton_self b) d count).binds s
  rw [h] at hbinds
  obtain ⟨_, _, hcheck, hrest⟩ := bind_eq_ok_iff.mp h
  obtain ⟨-, rfl⟩ := examine_eq_ok_iff.mp hcheck
  obtain ⟨_, s₁, hbind, hread⟩ := bind_eq_ok_iff.mp hrest
  cases hread
  exact ⟨congrArg (Elem.decode d count) (hbinds.contents b), hbinds, bindMemory_memory hb hbind⟩

/-- A view is taken of a block that is long enough and can have memory. -/
theorem view_of_served {count : Nat} (hview : checkView b d count s = .ok ())
    (hbind : s.Supplies b) :
    ∃ s', view b d count s = (.ok (Elem.decode d count (s.block b).contents), s') := by
  obtain ⟨s', hrun, hbinds⟩ := bindMemory_of_supplies hbind
  refine ⟨s', ?_⟩
  unfold view
  rw [examine_bind_apply hview, bind_apply_of_ok hrun, Action.inspect, hbinds.contents]

theorem write_of_served {xs : Array (Elem d)} (hb : b < s.blocks.size)
    (hview : checkView b d xs.size s = .ok ()) (hbind : s.Supplies b) :
    ∃ u, bindMemory b s = (.ok (), u) ∧ (u.block b).memory ≠ .unbound ∧
      write b xs s = (.ok (), modifyBytes b (Elem.overlay xs) u) := by
  obtain ⟨u, hrun, -⟩ := bindMemory_of_supplies hbind
  refine ⟨u, hrun, bindMemory_memory hb hrun, ?_⟩
  unfold write
  rw [examine_bind_apply hview, bind_apply_of_ok hrun]
  rfl

end Block

namespace Store

variable {s u : Store} {n : Nat} {bytes : Array UInt8} {d : ElemType}

/-- The host device has lent a new block of `n` bytes, which holds `bytes`. -/
structure Lends (s : Store) (n : Nat) (bytes : Array UInt8) (u : Store) : Prop
    extends s.Adds hostMemory n u where
  extend : s.Extends u
  contents : (u.block s.blocks.size).contents = bytes
  supplies : u.Supplies s.blocks.size

namespace Lends

theorem place (h : s.Lends n bytes u) : (u.block s.blocks.size).device = hostMemory :=
  congrArg Block.device h.fresh

theorem size (h : s.Lends n bytes u) : (u.block s.blocks.size).size = n :=
  congrArg Block.size h.fresh

theorem supplies_old (h : s.Lends n bytes u) {b : BlockId} (hb : b < s.blocks.size)
    (hsupplies : s.Supplies b) : u.Supplies b := by
  intro hu
  rw [h.old b hb] at hu ⊢
  exact (Device.supplies_of_description (h.extend.owner hb)).mpr (hsupplies hu)

end Lends

theorem lends_acquire (h : (s.device hostMemory).Supplies n) :
    s.Lends n (Array.replicate n 0) (s.acquire hostMemory n).2 := by
  refine ⟨.acquire s hostMemory n, s.extends_acquire hostMemory n, ?_, supplies_acquire_self.mpr h⟩
  rw [block_acquire_self]
  rfl

/-- Elements are written into a block that the host device lends. -/
theorem lends_write (xs : Array (Elem d))
    (hsupplies : (s.device hostMemory).Supplies (xs.size * d.width))
    (haddressable : (s.device hostMemory).addressable = true)
    (hsmall : xs.size * d.width < Size.limit) :
    ∃ u, Block.write s.blocks.size xs (s.acquire hostMemory (xs.size * d.width)).2 = (.ok (), u) ∧
      s.Lends (xs.size * d.width) (Elem.encode xs) u := by
  have hblank := lends_acquire hsupplies
  have hview : Block.checkView s.blocks.size d xs.size
      (s.acquire hostMemory (xs.size * d.width)).2 = .ok () := by
    refine Block.checkView_eq_ok_iff.mpr ⟨?_, hsmall, ?_⟩
    · rw [owner_acquire_self]
      exact haddressable
    · exact Nat.le_of_eq hblank.size.symm
  obtain ⟨v, hbind, hready, hwrite⟩ := Block.write_of_served hblank.lt hview hblank.supplies
  have hbinds := Block.bindMemory_binds s.blocks.size (s.acquire hostMemory (xs.size * d.width)).2
  have hadds := hblank.toAdds.bindMemory
  rw [hbind] at hbinds hadds
  have hmemory := memory_of_binds_acquire hbinds hready
  have hencoded : ((Block.modifyBytes s.blocks.size (Elem.overlay xs) v).block
      s.blocks.size).memory = .bound (Elem.encode xs) := by
    rw [Block.memory_modifyBytes_self _ hadds.lt, hmemory]
    rfl
  refine ⟨_, hwrite, hadds.modifyBytes _, ?_, ?_, fun hu => ?_⟩
  · have hkeeps := Block.write_keeps s.blocks.size xs (s.acquire hostMemory (xs.size * d.width)).2
    rw [hwrite] at hkeeps
    exact hblank.extend.trans hkeeps.extend
  · unfold Block.contents
    rw [hencoded]
  · rw [hencoded] at hu
    cases hu

end Store

namespace Tensor

variable {s s' : Store} {t : Tensor} {d : ElemType}

/-- The host device lends memory to transfers of a tensor that the host cannot reach. -/
structure Staged (t : Tensor) (s : Store) : Prop where
  addressable : (s.device Store.hostMemory).addressable = true
  supplies : ∀ n, n ≤ t.byteSize s → (s.device Store.hostMemory).Supplies n
  uploads : s.Conveys t.device Store.hostMemory
  downloads : s.Conveys Store.hostMemory t.device

/-- No device refuses a transfer between the host and the tensor. -/
structure Served (t : Tensor) (s : Store) : Prop where
  supplies : (s.device t.device).Supplies (t.byteSize s)
  staged : (s.device t.device).addressable = false → t.Staged s

/-- The tensor is held, and transfers of its elements are served. -/
structure Ready (t : Tensor) (s : Store) : Prop where
  owned : t.Owned s
  served : t.Served s

theorem byteSize_of_extends (hv : t.Valid s) (h : s.Extends s') :
    t.byteSize s' = t.byteSize s := by
  unfold byteSize
  cases hb : t.block with
  | none => rfl
  | some b => exact h.size b (hv.filled b hb).lt

theorem Served.mono (h : t.Served s) (hv : t.Valid s) (hs : s.Extends s') : t.Served s' := by
  have hsize := byteSize_of_extends hv hs
  refine ⟨?_, fun hremote => ?_⟩
  · rw [hsize]
    exact h.supplies.mono hs
  · rw [hs.addressable] at hremote
    obtain ⟨haddressable, hsupplies, huploads, hdownloads⟩ := h.staged hremote
    refine ⟨?_, fun n hn => ?_, huploads.mono hs, hdownloads.mono hs⟩
    · rw [hs.addressable]
      exact haddressable
    · exact (hsupplies n (hsize ▸ hn)).mono hs

/-! ## Facts about the block of a tensor that is ready -/

section Block

variable {b : BlockId}

theorem Ready.supplies (h : t.Ready s) (hb : t.block = some b) : s.Supplies b :=
  supplies_of_device h.owned.valid hb h.served.supplies

theorem Ready.live (h : t.Ready s) (hb : t.block = some b) : (s.block b).memory ≠ .released := by
  obtain ⟨hs₀, hh, hheld⟩ := h.owned.holds
  intro hreleased
  refine hh.released b hreleased (hheld ?_)
  unfold held
  rw [hb]
  exact List.mem_cons_self

theorem Ready.size_contents (h : t.Ready s) (b : BlockId) :
    (s.block b).contents.size = (s.block b).size := by
  obtain ⟨_, hh, -⟩ := h.owned.holds
  exact hh.size_contents b

end Block

/-! ## Uploads -/

/-- An upload is accepted if its elements are of the type of the tensor and fit into it. -/
theorem checkUpload_eq_ok_iff (hv : t.Valid s) (n offset : Nat) :
    t.checkUpload d n offset s = .ok () ↔ t.dtype = d ∧ offset + n ≤ t.count s := by
  have hsmall : t.count s < Size.limit := by
    refine Nat.lt_of_le_of_lt (Nat.div_le_self _ _) ?_
    cases hb : t.block with
    | none =>
      have hempty : t.byteSize s = 0 := by
        unfold byteSize
        rw [hb]
      rw [hempty]
      decide
    | some b =>
      have hf := hv.filled b hb
      rw [byteSize_of_block hb, hf.size]
      exact hf.small
  unfold checkUpload checkElementType
  by_cases hd : t.dtype = d
  · subst hd
    rw [if_pos rfl]
    by_cases hsum : offset + n < Size.limit
    · rw [Size.add_of_lt hsum]
      refine Except.unless_last_eq_ok_iff.trans ?_
      rw [Nat.not_lt]
      exact (and_iff_right rfl).symm
    · have hover : ¬offset + n ≤ t.count s := by omega
      have htrap : Size.add offset n = .error (.overflow .add) := if_neg hsum
      rw [htrap]
      constructor
      · intro h
        cases h
      · intro h
        exact absurd h.2 hover
  · rw [if_neg fun h => hd h.symm]
    constructor
    · intro h
      cases h
    · intro h
      exact absurd h.1 hd

section Paths

variable {b : BlockId} {xs : Array (Elem d)} {offset : Nat}

/-- Elements are laid over the block through a view. -/
theorem writeAt_of_served (h : t.Ready s) (hb : t.block = some b)
    (hdirect : (s.device t.device).addressable = true)
    (hfit : (offset + xs.size) * d.width ≤ (s.block b).size) :
    ∃ s', writeAt b xs offset s = (.ok (), s') ∧
      (s'.block b).contents = Elem.patch xs offset (s.block b).contents := by
  have hf := h.owned.valid.filled b hb
  have hview : Block.checkView b d (offset + xs.size) s = .ok () := by
    refine Block.checkView_eq_ok_iff.mpr ⟨?_, Nat.lt_of_le_of_lt hfit (hf.size ▸ hf.small), hfit⟩
    unfold Store.owner
    rw [hf.place]
    exact hdirect
  obtain ⟨u, hrun⟩ := Block.view_of_served hview (h.supplies hb)
  obtain ⟨-, hbinds, hunbound⟩ := Block.view_of_ok hf.lt hrun
  have hlive : (u.block b).memory ≠ .released := by
    rcases hbinds.memory b with hsame | ⟨-, hzeros⟩
    · rw [hsame]
      exact h.live hb
    · rw [hzeros]
      exact Memory.noConfusion
  unfold writeAt
  rw [bind_apply, hrun]
  refine ⟨_, rfl, ?_⟩
  rw [Block.contents_modifyBytes _ (hbinds.blocks ▸ hf.lt) hunbound hlive, hbinds.contents]
  exact Elem.overlay_extract xs offset _ (Nat.le_add_right _ _) _

/-- Elements are copied into the block from one on the host device. -/
theorem stageAt_of_served (h : t.Ready s) (hb : t.block = some b) (hstaged : t.Staged s)
    (hfit : (offset + xs.size) * d.width ≤ (s.block b).size) :
    ∃ s', stageAt b xs offset s = (.ok (), s') ∧
      (s'.block b).contents = Elem.patch xs offset (s.block b).contents := by
  have hf := h.owned.valid.filled b hb
  have hsmall : (s.block b).size < Size.limit := hf.size ▸ hf.small
  have hsum : offset * d.width + xs.size * d.width ≤ (s.block b).size :=
    Nat.add_mul offset xs.size d.width ▸ hfit
  have hsupplies : (s.device Store.hostMemory).Supplies (xs.size * d.width) := by
    refine hstaged.supplies _ ?_
    rw [byteSize_of_block hb]
    omega
  obtain ⟨u, hwrite, hlent⟩ :=
    Store.lends_write xs hsupplies hstaged.addressable (Nat.lt_of_le_of_lt (by omega) hsmall)
  have hold := hlent.old b hf.lt
  have hcheck : Block.checkCopy ⟨b, offset * d.width⟩ ⟨s.blocks.size, 0⟩ (xs.size * d.width) u =
      .ok () := by
    refine checkCopy_eq_ok ?_ ?_ ?_ ?_
    · simpa only [hold] using hsum
    · simpa only [hold] using hsmall
    · simp only [hlent.size, Nat.zero_add, Nat.le_refl]
    · dsimp only
      omega
  have hcopies : u.Conveys (u.block b).device (u.block s.blocks.size).device := by
    rw [hlent.place, hold, hf.place]
    exact hstaged.uploads.mono hlent.extend
  obtain ⟨v, hcopy⟩ := Block.copy_of_served hcheck (hlent.supplies_old hf.lt (h.supplies hb))
    hlent.supplies hcopies
  have hstart : Size.mul offset d.width = .ok (offset * d.width) := Size.mul_of_lt (by omega)
  refine ⟨v.release s.blocks.size, ?_, ?_⟩
  · unfold stageAt Block.temporary
    simp only [bind_apply, Action.changing, Action.thenTidy, Store.acquire_fst]
    rw [hwrite]
    dsimp only
    rw [hstart]
    exact congrArg (fun r : Except Fault Unit × Store => (r.1, r.2.release s.blocks.size)) hcopy
  · have hlive : (u.block b).memory ≠ .released := by
      rw [hold]
      exact h.live hb
    rw [Store.block_release_of_ne (Nat.ne_of_gt hf.lt),
      Block.contents_of_copy hcopy (Nat.lt_trans hf.lt hlent.lt) hlive, hlent.contents, hold]
    exact Elem.spliced_encode xs offset _

end Paths

/-- Elements that are accepted are laid over the bytes of the tensor, directly or not. -/
theorem upload_of_accepted (h : t.Ready s) {xs : Array (Elem d)} {offset : Nat}
    (hcheck : t.checkUpload d xs.size offset s = .ok ()) :
    ∃ s', t.upload xs offset s = (.ok (), s') ∧
      t.contents? s' = (t.contents? s).map (Elem.patch xs offset) := by
  unfold upload
  rw [bind_apply, Action.examine, hcheck]
  unfold contents?
  cases hb : t.block with
  | none => exact ⟨s, rfl, rfl⟩
  | some b =>
    have hfit := fits_of_checkUpload hb hcheck
    dsimp only
    rw [bind_apply, Action.inspect]
    cases hdirect : (s.device t.device).addressable with
    | true =>
      obtain ⟨s', hrun, hcontents⟩ := writeAt_of_served h hb hdirect hfit
      exact ⟨s', hrun, congrArg some hcontents⟩
    | false =>
      obtain ⟨s', hrun, hcontents⟩ := stageAt_of_served h hb (h.served.staged hdirect) hfit
      exact ⟨s', hrun, congrArg some hcontents⟩

/-- A transfer that its check refuses changes nothing. -/
theorem upload_of_refused {xs : Array (Elem d)} {offset : Nat} {f : Fault}
    (hcheck : t.checkUpload d xs.size offset s = .error f) :
    t.upload xs offset s = (.error f, s) := by
  unfold upload
  rw [bind_apply, Action.examine, hcheck]

/-! ## Reads -/

/-- The bytes of a block are copied to one on the host device and read there. -/
theorem readStaged_of_served (h : t.Ready s) {b : BlockId} (hb : t.block = some b)
    (hstaged : t.Staged s) {count : Nat} (hfit : count * d.width ≤ (s.block b).size) :
    ∃ s', readStaged b d count (s.block b).size s =
      (.ok (Elem.decode d count (s.block b).contents), s') := by
  have hf := h.owned.valid.filled b hb
  have hsmall : (s.block b).size < Size.limit := hf.size ▸ hf.small
  have hsupplies : (s.device Store.hostMemory).Supplies (s.block b).size :=
    hstaged.supplies _ (Nat.le_of_eq (byteSize_of_block hb).symm)
  have hlent := Store.lends_acquire hsupplies
  have hold := hlent.old b hf.lt
  have hcheck : Block.checkCopy ⟨s.blocks.size, 0⟩ ⟨b, 0⟩ (s.block b).size
      (s.acquire Store.hostMemory (s.block b).size).2 = .ok () := by
    refine checkCopy_eq_ok ?_ ?_ ?_ ?_
    · simp only [hlent.size, Nat.zero_add, Nat.le_refl]
    · simpa only [hlent.size] using hsmall
    · simp only [hold, Nat.zero_add, Nat.le_refl]
    · simpa only [Nat.zero_add] using hsmall
  have hcopies : (s.acquire Store.hostMemory (s.block b).size).2.Conveys
      ((s.acquire Store.hostMemory (s.block b).size).2.block s.blocks.size).device
      ((s.acquire Store.hostMemory (s.block b).size).2.block b).device := by
    rw [hlent.place, hold, hf.place]
    exact hstaged.downloads.mono hlent.extend
  obtain ⟨u, hcopy⟩ := Block.copy_of_served hcheck hlent.supplies
    (hlent.supplies_old hf.lt (h.supplies hb)) hcopies
  have hcontents : (u.block s.blocks.size).contents = (s.block b).contents := by
    rw [Block.contents_of_copy hcopy hlent.lt hlent.live, hlent.contents, hold,
      ← h.size_contents b]
    exact Block.spliced_all (by simp)
  have hkeeps : (s.acquire Store.hostMemory (s.block b).size).2.Extends u := by
    have hcopied := (Block.copy_keeps ⟨s.blocks.size, 0⟩ ⟨b, 0⟩ (s.block b).size).ends
      (s.acquire Store.hostMemory (s.block b).size).2
    exact (hcopied.ok hcopy).extend
  have hextends := hlent.extend.trans hkeeps
  have hplace : (u.block s.blocks.size).device = Store.hostMemory :=
    (hkeeps.place _ hlent.lt).trans hlent.place
  have hsize : (u.block s.blocks.size).size = (s.block b).size :=
    (hkeeps.size _ hlent.lt).trans hlent.size
  have hview : Block.checkView s.blocks.size d count u = .ok () := by
    refine Block.checkView_eq_ok_iff.mpr ⟨?_, Nat.lt_of_le_of_lt hfit hsmall, hsize ▸ hfit⟩
    unfold Store.owner
    rw [hplace, hextends.addressable]
    exact hstaged.addressable
  have hready : u.Supplies s.blocks.size := by
    intro _
    unfold Store.owner
    rw [hplace, hsize]
    exact hsupplies.mono hextends
  obtain ⟨v, hread⟩ := Block.view_of_served hview hready
  refine ⟨v.release s.blocks.size, ?_⟩
  unfold readStaged Block.temporary
  simp only [bind_apply, Action.changing, Action.thenTidy, Store.acquire_fst]
  rw [hcopy]
  dsimp only
  rw [hread, hcontents]

/-- A read gives the elements of the tensor, directly or not. -/
theorem read_of_ready (h : t.Ready s) :
    ∃ s', t.read t.dtype s = (.ok (t.stored t.dtype s), s') := by
  have hcheck : t.checkElementType t.dtype = .ok () := if_pos rfl
  unfold read
  rw [bind_apply, Action.ofExcept, hcheck]
  cases hb : t.block with
  | none =>
    unfold stored
    rw [hb]
    exact ⟨s, rfl⟩
  | some b =>
    have hf := h.owned.valid.filled b hb
    have hfit : t.count s * t.dtype.width ≤ (s.block b).size :=
      Nat.le_of_eq (by rw [hf.count hb, hf.size])
    rw [stored_of_block hb]
    dsimp only
    simp only [bind_apply, Action.inspect]
    cases hdirect : (s.device t.device).addressable with
    | true =>
      have hview : Block.checkView b t.dtype (t.count s) s = .ok () := by
        refine Block.checkView_eq_ok_iff.mpr
          ⟨?_, Nat.lt_of_le_of_lt hfit (hf.size ▸ hf.small), hfit⟩
        unfold Store.owner
        rw [hf.place]
        exact hdirect
      exact Block.view_of_served hview (h.supplies hb)
    | false =>
      rw [byteSize_of_block hb]
      exact readStaged_of_served h hb (h.served.staged hdirect) hfit

theorem read_of_refused (hd : t.dtype ≠ d) :
    t.read d s = (.error (.elementTypeMismatch d t.dtype), s) := by
  have hcheck : t.checkElementType d = .error (.elementTypeMismatch d t.dtype) :=
    if_neg fun h => hd h.symm
  unfold read
  rw [bind_apply, Action.ofExcept, hcheck]

/-- A read leaves the bytes of the tensor. -/
theorem contents?_read (hv : t.Valid s) (d : ElemType) :
    t.contents? (t.read d s).2 = t.contents? s := by
  have hshows : s.Shows (t.read d s).2 := read_shows t d s (.refl s)
  unfold contents?
  cases hb : t.block with
  | none => rfl
  | some b => exact congrArg some (congrArg Sight.contents (hshows.sight b (hv.filled b hb).lt))

end Tensor

end DeviceTensor
