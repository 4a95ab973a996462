import DeviceTensor.Proofs.Tensor.Transfer
set_option autoImplicit false

/-!
# What a read depends on

A read gives the elements of a block, unless a device on the way does not serve it: the device of the
block, which must grant it memory, and those that take part if the bytes are fetched into host memory.
What they answer may depend on what they were asked for before.  All else is decided by what the block
shows and by how the devices are described.  Two tensors of one type on one device whose blocks show
the same therefore read the same if both reads are served: `Tensor.read_congr`.
-/

namespace DeviceTensor

open DeviceTensor.Action

/-! ## Devices that do not serve -/

/-- A device refused memory, or did not make a copy. -/
def Fault.unserved : Fault → Bool
  | .allocationFailed _ _ _ _ => true
  | .copyFailed _ _ _ => true
  | _ => false

theorem Fault.unserved_of_refuses {f : Fault} (h : MemoryFailure.refuses f = true) :
    f.unserved = true := by
  cases f <;> first | rfl | cases h

/-- The result is that a device did not serve. -/
def Unserved {α : Type} : Except Fault α → Prop
  | .ok _ => False
  | .error f => f.unserved = true

theorem Unserved.of_refused {α : Type} {x : Except Fault α} (h : Except.Refused x) : Unserved x := by
  cases x with
  | ok a => exact h
  | error f => exact Fault.unserved_of_refuses h

/-- The results are the same, unless a device did not serve one of them. -/
def SameIfServed {α : Type} (x x' : Except Fault α) : Prop := Unserved x ∨ Unserved x' ∨ x' = x

/-- Looks that see the same. -/
theorem SameIfServed.of_reads {α : Type} {bs bs' : List BlockId} {x x' : Action Fault α}
    {p p' : Store → Except Fault α} {s s' : Store} (h : Reads bs x p) (h' : Reads bs' x' p')
    (hp : p' s' = p s) : SameIfServed (x s).1 (x' s').1 := by
  rcases h.result s with hr | ⟨hrefused, -⟩
  · rcases h'.result s' with hr' | ⟨hrefused', -⟩
    · exact .inr (.inr (by rw [hr, hr', hp]))
    · exact .inr (.inl (.of_refused hrefused'))
  · exact .inl (.of_refused hrefused)

/-! ## Fetching bytes into host memory -/

namespace Block

variable {s s' : Store} {b b' : BlockId} {hs hs' : List BlockId} {n : Nat}

/-- Bytes are moved, or the device does not serve. -/
theorem moveBytes_served (executor : DeviceId) (direction : Direction) (dst src : Range) (n : Nat)
    (s : Store) : (moveBytes executor direction dst src n).Ends s (fun _ _ => True)
      fun f _ => f.unserved = true := by
  unfold moveBytes
  rw [ends_bind]
  refine ends_request (fun _ => ?_) fun _ _ => rfl
  rw [ends_bind, ends_change]
  exact ends_request (fun _ => trivial) fun _ _ => rfl

/-- A copy inside its blocks is made, or a device does not serve it. -/
theorem copy_served {dst src : Range} (hcheck : checkCopy dst src n s = .ok ()) :
    (copy dst src n).Ends s (fun _ _ => True) fun f _ => f.unserved = true := by
  by_cases hn : n = 0
  · subst hn
    unfold Ends
    rw [copy_of_zero hcheck]
    trivial
  · unfold Ends
    rw [copy_eq hcheck hn]
    have hbind (c : BlockId) {next : Unit → Action Fault Unit}
        (hnext : ∀ t, (next ()).Ends t (fun _ _ => True) fun f _ => f.unserved = true) (t : Store) :
        (bindMemory c >>= next).Ends t (fun _ _ => True) fun f _ => f.unserved = true := by
      rw [ends_bind]
      exact (bindMemory_ends c t).mono (fun _ t' _ => hnext t')
        fun f _ h => Fault.unserved_of_refuses h.2
    exact hbind _ (hbind _ (moveBytes_served _ _ _ _ _)) s

/-- A fetch that succeeded shows the bytes of the block in host memory. -/
theorem sight_of_fetch (hh : s.Holds hs) (hb : b ∈ hs) (hn : (s.block b).size = n)
    (h : copy ⟨s.blocks.size, 0⟩ ⟨b, 0⟩ n (s.acquire Store.hostMemory n).2 = (.ok (), s')) :
    sight s.blocks.size s' =
      ⟨n, (s.block b).contents, (s.device Store.hostMemory).description⟩ := by
  have hlt := hh.lt b hb
  have hnew := s.block_acquire_self Store.hostMemory n
  have hkeeps := ((copy_keeps ⟨s.blocks.size, 0⟩ ⟨b, 0⟩ n).ends
    (s.acquire Store.hostMemory n).2).ok h
  have hfresh : s.blocks.size < (s.acquire Store.hostMemory n).2.blocks.size := by simp
  have hsize : (s'.block s.blocks.size).size = n := by
    rw [hkeeps.extend.size _ hfresh, hnew]
  have howner : (s'.owner s.blocks.size).description =
      (s.device Store.hostMemory).description := by
    rw [hkeeps.extend.owner hfresh, Store.owner_acquire_self]
  have hcontents : (s'.block s.blocks.size).contents = (s.block b).contents := by
    have hlive : ((s.acquire Store.hostMemory n).2.block s.blocks.size).memory ≠ .released := by
      rw [hnew]
      exact Memory.noConfusion
    have hbytes : (s.block b).contents.size = n := (hh.size_contents b).trans hn
    have hblank : ((s.acquire Store.hostMemory n).2.block s.blocks.size).contents =
        Array.replicate n 0 := by
      rw [hnew]
      rfl
    rw [contents_of_copy h hfresh hlive, hblank, Store.block_acquire_of_lt hlt, ← hbytes]
    exact spliced_all (by simp)
  unfold sight
  rw [hsize, hcontents, howner]

/-- All bytes of a block are fetched, or a device does not serve the fetch. -/
theorem fetch_served (hlt : b < s.blocks.size) (hn : (s.block b).size = n) (hsmall : n < Size.limit) :
    (copy ⟨s.blocks.size, 0⟩ ⟨b, 0⟩ n).Ends (s.acquire Store.hostMemory n).2 (fun _ _ => True)
      fun f _ => f.unserved = true := by
  have hold : (s.acquire Store.hostMemory n).2.block b = s.block b := Store.block_acquire_of_lt hlt
  have hnew := s.block_acquire_self Store.hostMemory n
  refine copy_served (Tensor.checkCopy_eq_ok ?_ ?_ ?_ ?_)
  · simp [hnew]
  · simpa [hnew] using hsmall
  · simp [hold, hn]
  · simpa using hsmall

/-- A read by way of host memory depends on what the block shows and on how the host device is
described, if it is served. -/
theorem readStaged_congr (hh : s.Holds hs) (hb : b ∈ hs) (hh' : s'.Holds hs') (hb' : b' ∈ hs')
    (hn : (s.block b).size = n) (hsmall : n < Size.limit) (hsight : sight b' s' = sight b s)
    (hhost : (s'.device Store.hostMemory).description = (s.device Store.hostMemory).description)
    (d : ElemType) (count : Nat) :
    SameIfServed (Tensor.readStaged b d count n s).1 (Tensor.readStaged b' d count n s').1 := by
  obtain ⟨hsize, hcontents, -⟩ := Sight.mk.inj hsight
  have hn' : (s'.block b').size = n := hsize.trans hn
  have hserved := fetch_served (hh.lt b hb) hn hsmall
  have hserved' := fetch_served (hh'.lt b' hb') hn' hsmall
  unfold Ends at hserved hserved'
  unfold Tensor.readStaged temporary
  simp only [bind_apply, Action.changing, Action.thenTidy, Store.acquire_fst]
  cases hcopy : copy ⟨s.blocks.size, 0⟩ ⟨b, 0⟩ n (s.acquire Store.hostMemory n).2 with
  | mk r u =>
    cases hcopy' : copy ⟨s'.blocks.size, 0⟩ ⟨b', 0⟩ n (s'.acquire Store.hostMemory n).2 with
    | mk r' u' =>
      rw [hcopy] at hserved
      rw [hcopy'] at hserved'
      cases r with
      | error f => exact .inl hserved
      | ok _ =>
        cases r' with
        | error f => exact .inr (.inl hserved')
        | ok _ =>
          have hfetched := sight_of_fetch hh hb hn hcopy
          have hfetched' := sight_of_fetch hh' hb' hn' hcopy'
          rw [hcontents, hhost] at hfetched'
          exact .of_reads (view_reads (List.mem_singleton_self _) d count)
            (view_reads (List.mem_singleton_self _) d count)
            (seen_congr (hfetched'.trans hfetched.symm) d count)

end Block

/-! ## Reads -/

namespace Tensor

variable {s s' : Store} {t t' : Tensor} {hs hs' : List BlockId}

/-- Tensors of one form whose blocks show the same read the same if they are served. -/
theorem read_congr (h : t.Mirrors s t' s') (hv : t.Valid s) (hh : s.Holds hs) (ht : t.held ⊆ hs)
    (hh' : s'.Holds hs') (ht' : t'.held ⊆ hs')
    (hdevice : ∀ d, (s'.device d).description = (s.device d).description) (d : ElemType) :
    SameIfServed (t.read d s).1 (t'.read d s').1 := by
  cases h with
  | bare hb h =>
    subst h
    refine .inr (.inr ?_)
    unfold read
    rw [hb, bind_apply, bind_apply]
    unfold Action.ofExcept
    dsimp only
    cases t'.checkElementType d <;> rfl
  | onBlock b c hb h hsight =>
    subst h
    have hf := hv.filled b hb
    have hsize : (s'.block c).size = (s.block b).size := congrArg Sight.size hsight
    have hbytes : byteSize { t with block := some c } s' = t.byteSize s := by
      rw [byteSize_of_block hb]
      exact hsize
    have hcount : count { t with block := some c } s' = t.count s := by
      unfold count
      rw [hbytes]
    have haddressable : (s'.device t.device).addressable = (s.device t.device).addressable :=
      Device.addressable_of_description (hdevice t.device)
    unfold read
    rw [hb, bind_apply, bind_apply]
    unfold Action.ofExcept
    cases hcheck : t.checkElementType d with
    | error e =>
      have hcheck' : checkElementType { t with block := some c } d = .error e := hcheck
      rw [hcheck']
      exact .inr (.inr rfl)
    | ok _ =>
      have hcheck' : checkElementType { t with block := some c } d = .ok () := hcheck
      rw [hcheck']
      dsimp only
      simp only [bind_apply, Action.inspect]
      rw [hcount, hbytes, haddressable]
      cases (s.device t.device).addressable with
      | true =>
        exact .of_reads (Block.view_reads (List.mem_singleton_self _) d _)
          (Block.view_reads (List.mem_singleton_self _) d _) (Block.seen_congr hsight d _)
      | false =>
        rw [byteSize_of_block hb]
        exact Block.readStaged_congr hh (ht (by simp [held, hb])) hh' (ht' (by simp [held])) rfl
          (hf.size ▸ hf.small) hsight (hdevice _) d _

/-- Tensors of one form show the same if they have the same bytes. -/
theorem mirrors_of_contents (hform : t' = { t with block := t'.block }) (hv : t.Valid s)
    (hv' : t'.Valid s') (hdevice : ∀ d, (s'.device d).description = (s.device d).description)
    (hcontents : t'.contents? s' = t.contents? s) : t.Mirrors s t' s' := by
  unfold contents? at hcontents
  cases hb : t.block with
  | none =>
    rw [hb] at hcontents
    have hbare : t'.block = none := Option.map_eq_none_iff.mp hcontents
    refine .bare hb ?_
    rw [hform, hbare, ← hb]
  | some b =>
    rw [hb] at hcontents
    obtain ⟨c, hc, hbytes⟩ := Option.map_eq_some_iff.mp hcontents
    have hf := hv.filled b hb
    have hf' := hv'.filled c hc
    have hshape : t'.shape = t.shape := by rw [hform]
    have hdtype : t'.dtype = t.dtype := by rw [hform]
    have hplace : t'.device = t.device := by rw [hform]
    have hsize : (s'.block c).size = (s.block b).size := by
      rw [hf'.size, hf.size, hshape, hdtype]
    have howner : (s'.owner c).description = (s.owner b).description := by
      unfold Store.owner
      rw [hf'.place, hf.place, hplace, hdevice]
    refine .onBlock b c hb ?_ ?_
    · rw [← hc]
      exact hform
    · unfold Block.sight
      rw [hsize, hbytes, howner]

/-- Tensors of one type on one device and one block read the same. -/
theorem read_eq_of_block (hdtype : t'.dtype = t.dtype) (hdevice : t'.device = t.device)
    (hblock : t'.block = t.block) (d : ElemType) : t'.read d = t.read d := by
  have hbytes : t'.byteSize = t.byteSize := by
    unfold byteSize
    rw [hblock]
  have hcount : t'.count = t.count := by
    unfold count
    rw [hbytes, hdtype]
  unfold read checkElementType
  rw [hdtype, hdevice, hblock, hbytes, hcount]

end Tensor

end DeviceTensor
