import DeviceTensor.Proofs.Element.Bytes
import DeviceTensor.Proofs.Kernel.Completion
import DeviceTensor.Proofs.Routine.Catalog
import DeviceTensor.Proofs.Store.Tracking
set_option autoImplicit false

/-!
# Work on blank blocks

On devices at service, `Store.Serviceable`, copying a blank block over another one is not seen, and
neither is casting one into the other: zeros are cast to zeros, between any two element types.
-/

namespace DeviceTensor

open DeviceTensor.Action

/-! ## Registered casts -/

namespace Registry

/-- Every element type can be cast on a backend, by the routine of the host catalog. -/
def Casts (r : Registry Routine) (backend : Backend) : Prop :=
  ∀ dtype, r.get? ⟨dtype, backend, .cast⟩ = some (.catalog dtype .cast)

theorem get?_of_registers {key : RoutineKey} {v : Routine} {es : List (RoutineKey × Routine)}
    (hes : ∀ e ∈ es, e.1 = key → e.2 = v) {r : Registry Routine}
    (h : r.get? key = some v ∨ ∃ e ∈ es, e.1 = key) :
    (es.foldl (fun r e => r.register e.1 e.2) r).get? key = some v := by
  induction es generalizing r with
  | nil =>
    rcases h with h | ⟨e, he, -⟩
    · exact h
    · cases he
  | cons e es ih =>
    refine ih (fun e' he' => hes e' (List.mem_cons_of_mem e he')) ?_
    rw [get?_register]
    by_cases hkey : e.1 = key
    · rw [if_pos hkey, hes e List.mem_cons_self hkey]
      exact .inl rfl
    · rw [if_neg hkey]
      refine h.imp_right ?_
      rintro ⟨e', he', hkey'⟩
      rcases List.mem_cons.mp he' with rfl | he'
      · exact absurd hkey' hkey
      · exact ⟨e', he', hkey'⟩

theorem cast_of_mem_hostCatalog {backend : Backend} {e : RoutineKey × Routine} {dtype : ElemType}
    {backend' : Backend} (h : e ∈ Routine.hostCatalog backend)
    (hkey : e.1 = ⟨dtype, backend', .cast⟩) : e.2 = .catalog dtype .cast := by
  have hserves := Routine.serves_of_mem_hostCatalog h
  obtain ⟨key, routine⟩ := e
  dsimp only at hkey hserves ⊢
  subst hkey
  cases routine with
  | catalog d op =>
    obtain ⟨rfl, rfl, -⟩ := hserves
    rfl
  | singleProduct => cases hserves.2
  | doubleProduct => cases hserves.2
  | probe p => exact hserves.elim

/-- Registering the host catalog for a backend makes its casts available. -/
theorem casts_registerCatalog (r : Registry Routine) (backend : Backend) :
    (r.registerCatalog backend).Casts backend := by
  intro dtype
  refine get?_of_registers (fun e he => cast_of_mem_hostCatalog he) (.inr ?_)
  refine ⟨(⟨dtype, backend, .cast⟩, .catalog dtype .cast), ?_, rfl⟩
  refine List.mem_append_left _ (List.mem_flatMap.mpr ⟨dtype, ?_, ?_⟩)
  · cases dtype <;> decide
  · cases dtype <;> exact List.mem_map.mpr ⟨.cast, by decide, rfl⟩

theorem Casts.registerCatalog {r : Registry Routine} {backend : Backend} (h : r.Casts backend)
    (backend' : Backend) : (r.registerCatalog backend').Casts backend := fun dtype =>
  get?_of_registers (fun _ he => cast_of_mem_hostCatalog he) (.inl (h dtype))

/-- A routine for another operation leaves the casts. -/
theorem Casts.register {r : Registry Routine} {backend : Backend} (h : r.Casts backend)
    {key : RoutineKey} (hkey : key.op ≠ .cast) (v : Routine) :
    (r.register key v).Casts backend := by
  intro dtype
  rw [get?_register, if_neg fun heq => hkey (congrArg RoutineKey.op heq)]
  exact h dtype

end Registry

/-! ## Devices at service -/

namespace Store

/-- The host reaches the memory of every device, every device makes the copies that it is asked for
and waits for them, and its backend has the casts of the host catalog. -/
structure Serviceable (s : Store) : Prop extends s.Copies where
  addressable : ∀ d, (s.device d).addressable = true
  casts : ∀ d, s.registry.Casts (s.backend d)

theorem Serviceable.of_description {s s' : Store} (h : s.Serviceable)
    (hd : ∀ d, (s'.device d).description = (s.device d).description)
    (hcasts : ∀ d, s'.registry.Casts (s.backend d)) : s'.Serviceable := by
  have hbackend (d : DeviceId) : s'.backend d = s.backend d := Device.backend_of_description (hd d)
  refine ⟨⟨fun dst src n earlier => ?_, fun d earlier => ?_⟩, fun d => ?_, fun d => ?_⟩
  · rw [hbackend, hbackend, Device.answers_of_description (hd _)]
    exact h.performs dst src n earlier
  · rw [Device.answers_of_description (hd d)]
    exact h.waits d earlier
  · exact (Device.addressable_of_description (hd d)).trans (h.addressable d)
  · rw [hbackend]
    exact hcasts d

theorem Serviceable.mono {s s' : Store} (h : s.Serviceable) (hs : s.Extends s') :
    s'.Serviceable := by
  refine h.of_description hs.device ?_
  rw [hs.registry]
  exact h.casts

theorem Resembles.serviceable {s s' : Store} (h : s.Resembles s') (hs : s.Serviceable) :
    s'.Serviceable := hs.mono h.shows.toExtends

end Store

variable {s : Store}

/-! ## Blank blocks -/

/-- A change that leaves zeros leaves a blank block blank. -/
theorem Block.Blank.map {k : Block} (h : k.Blank) {f : Array UInt8 → Array UInt8}
    (hf : f (Array.replicate k.size 0) = Array.replicate k.size 0) :
    Block.Blank { k with memory := k.memory.map f } := by
  unfold Blank at *
  cases hm : k.memory with
  | unbound => trivial
  | released =>
    rw [hm] at h
    exact h
  | bound bytes =>
    rw [hm] at h
    exact (congrArg f h).trans hf

theorem Block.Blank.of_unbound {b : BlockId} (h : (s.block b).memory = .unbound) :
    (s.block b).Blank := by
  unfold Blank
  rw [h]
  trivial

/-- A block is blank on stores that resemble each other. -/
theorem Block.Blank.congr {b : BlockId} {s' : Store} (h : (s.block b).Blank)
    (hs : s.Resembles s') : (s'.block b).Blank := by
  rcases (hs.block b).memory with hm | ⟨-, hblank⟩
  · exact (Block.Alike.blank_iff (hs.block b).bare hm).mpr h
  · exact hblank

/-- A change of a blank block that leaves zeros is not seen. -/
theorem Store.Resembles.modifyBytes_unseen {t : Store} {b : BlockId} (ht : s.Resembles t)
    (hb : (s.block b).Blank) {f : Array UInt8 → Array UInt8}
    (hf : f (Array.replicate (s.block b).size 0) = Array.replicate (s.block b).size 0) :
    s.Resembles (Block.modifyBytes b f t) := by
  have hblank := hb.congr ht
  rw [Block.modifyBytes_eq]
  refine ht.trans (.of_blank hblank (hblank.map ?_))
  rw [(ht.block b).size]
  exact hf

/-! ## Copies of zeros -/

namespace Block

theorem spliced_zeros (size n dstOffset srcOffset k : Nat) :
    spliced (Array.replicate size 0) (Array.replicate n 0) dstOffset srcOffset k =
      Array.replicate size 0 := by
  have hzero (p : Nat) : (Array.replicate n (0 : UInt8)).getD p 0 = 0 := by
    rw [Array.getD_eq_getD_getElem?, Array.getElem?_replicate]
    split <;> rfl
  refine Array.ext_getElem? fun i => ?_
  rw [spliced, Array.getElem?_mapIdx, Array.getElem?_replicate]
  by_cases hi : i < size
  · rw [if_pos hi, Option.map_some, hzero, ite_self]
  · rw [if_neg hi]
    rfl

/-- The bytes of a blank block are moved to another one. -/
theorem moveBytes_unseen {u : Store} (hu : s.Resembles u) {executor : DeviceId}
    {direction : Direction} {n : Nat}
    (hcopy : ∀ earlier, (s.device executor).answers earlier (.copy n direction) = .ok ())
    (hwait : ∀ earlier, (s.device executor).answers earlier .wait = .ok ()) {dst src : Range}
    (hdst : (s.block dst.block).Blank) (hsrc : (s.block src.block).Blank) :
    (moveBytes executor direction dst src n).Ends u (fun _ t => s.Resembles t)
      fun _ _ => False := by
  have hgrants {v : Store} (hv : s.Resembles v) {r : Request}
      (hr : ∀ earlier, (s.device executor).answers earlier r = .ok ()) :
      (v.device executor).answer r = .ok () := by
    unfold Device.answer
    rw [Device.answers_of_description (hv.description executor)]
    exact hr _
  -- what the device accounts for and was asked for is not seen
  have hasked {v : Store} (hv : s.Resembles v) (r : Request) :
      s.Resembles (v.modifyDevice executor (·.after r)) :=
    hv.trans (.of_accounts v executor fun _ => rfl)
  have hspliced {v : Store} (hv : s.Resembles v) :
      s.Resembles (splice dst src n (v.modifyDevice executor Device.tallied)) := by
    have htallied : s.Resembles (v.modifyDevice executor Device.tallied) :=
      hv.trans (.of_accounts v executor fun _ => rfl)
    refine htallied.modifyBytes_unseen hdst ?_
    rw [(htallied.block src.block).contents, hsrc.contents]
    exact spliced_zeros _ _ _ _ _
  have hmoved := hspliced (hasked hu (.copy n direction))
  unfold moveBytes
  rw [ends_bind]
  refine ends_request (fun _ => ?_) fun e he => nomatch (hgrants hu hcopy).symm.trans he
  rw [ends_bind, ends_change]
  exact ends_request (fun _ => hasked hmoved _)
    fun e he => nomatch (hgrants hmoved hwait).symm.trans he

/-- A blank block is copied over another one. -/
theorem copy_unseen (hs : s.Serviceable) {dst src : Range} {n : Nat}
    (hdst : (s.block dst.block).Blank) (hsrc : (s.block src.block).Blank)
    (hcheck : checkCopy dst src n s = .ok ()) : (copy dst src n).Unseen s := by
  unfold copy Unseen
  rw [ends_bind, ends_examine]
  refine ⟨fun _ _ => ?_, fun e he => by rw [hcheck] at he; cases he⟩
  split
  · exact .refl s
  rw [ends_bind, ends_inspect, ends_bind, ends_inspect, ends_bind]
  refine (bindMemory_ends dst.block s).mono (fun _ t ht => ?_) fun _ _ h => h.2
  rw [ends_bind]
  refine (bindMemory_ends src.block t).mono (fun _ u hu => ?_) fun _ _ h => h.2
  have hmoves := moveBytes_unseen (Store.Resembles.of_binds (ht.trans hu))
    (hs.performs (s.block dst.block).device (s.block src.block).device n) (hs.waits _) hdst hsrc
  exact hmoves.mono (fun _ _ h => h) fun _ _ h => h.elim

/-- A view of a blank block shows zeros. -/
theorem seen_blank (hs : s.Serviceable) {b : BlockId} (hb : (s.block b).Blank) {d : ElemType}
    {n : Nat} (hsmall : n * d.width < Size.limit) (hfit : n * d.width ≤ (s.block b).size) :
    seen b d n s = .ok (Array.replicate n 0) := by
  have hcheck : checkView b d n s = .ok () :=
    checkView_eq_ok_iff.mpr ⟨hs.addressable _, hsmall, hfit⟩
  unfold seen
  rw [hcheck, hb.contents, Elem.decode_zeros]
  rfl

end Block

/-! ## Casts of zeros -/

/-- A sweep that stores what is there already. -/
theorem sweep_replicate {ι α : Type} {place : ι → Array α → Except Halt (Nat × α)} {n : Nat}
    {x : α} {cs : List ι}
    (h : ∀ c ∈ cs, ∃ k, k < n ∧ place c (Array.replicate n x) = .ok (k, x)) :
    sweep place cs (Array.replicate n x) = (Array.replicate n x, .ok ()) := by
  induction cs with
  | nil => rfl
  | cons c cs ih =>
    obtain ⟨k, hlt, hk⟩ := h c List.mem_cons_self
    have hvisit : visit place c (Array.replicate n x) = .ok (Array.replicate n x) := by
      refine Outcome.visit_eq_ok_iff.mpr ⟨k, x, hk, ?_, ?_⟩
      · rwa [Array.size_replicate]
      · rw [Array.setIfInBounds_replicate_self]
    unfold sweep
    rw [hvisit]
    exact ih fun c' hc' => h c' (List.mem_cons_of_mem c hc')

/-- Casting the same element everywhere into what is there already. -/
theorem Kernel.cast_replicate {α β : Type} {convert : α → Option β} {x : α} {y : β}
    (h : convert x = some y) (n : Nat) :
    cast convert (Array.replicate n x) (Array.replicate n y) = (Array.replicate n y, .ok ()) := by
  unfold cast checked requireEqual
  rw [Array.size_replicate, Array.size_replicate, if_pos rfl]
  refine sweep_replicate fun i hi => ⟨i, List.mem_range.mp hi, ?_⟩
  have hlt : i < (Array.replicate n x).size := by
    rw [Array.size_replicate]
    exact List.mem_range.mp hi
  rw [Buffer.read_of_lt hlt, Array.getElem_replicate]
  have hread : (liftM (Except.ok x : Except Trap α) : Except Halt α) = .ok x := rfl
  simp only [hread, Bind.bind, Except.bind, h]
  rfl

/-- A blank block is cast into another one. -/
theorem launch_cast_unseen (hs : s.Serviceable) {inv : Invocation} {dtype : ElemType}
    {src : BlockId} (hinputs : inv.inputs = [src]) (hsrc : (s.block src).Blank)
    (hdst : (s.block inv.output).Blank)
    (hsmall : inv.count * dtype.width < Size.limit)
    (hfit : inv.count * dtype.width ≤ (s.block src).size)
    (hsmall' : inv.count * inv.outType.width < Size.limit)
    (hfit' : inv.count * inv.outType.width ≤ (s.block inv.output).size) :
    (launch .cast dtype inv).Unseen s := by
  by_cases hn : inv.Stops (launch .cast dtype inv) s
  · obtain ⟨f, hf⟩ := hn.refused.exists_error
    have hrefused := hn.refused
    rw [hf] at hrefused
    unfold Unseen Ends
    cases hrun : launch .cast dtype inv s with
    | mk r t =>
      rw [hrun] at hf
      obtain rfl : r = .error f := hf
      exact hrefused
  have hinput : inv.inputSeen dtype 0 inv.count s = .ok (Array.replicate inv.count 0) := by
    unfold Invocation.inputSeen
    rw [hinputs]
    exact congrArg (Except.mapError RoutineFailure.fault) (Block.seen_blank hs hsrc hsmall hfit)
  have houtput : inv.outputSeen inv.outType inv.count s = .ok (Array.replicate inv.count 0) :=
    congrArg (Except.mapError RoutineFailure.fault) (Block.seen_blank hs hdst hsmall' hfit')
  have hkernel := Kernel.cast_replicate (Elem.cast_zero dtype inv.outType) inv.count
  have hlaunch : launchSeen .cast dtype inv s = .ok (.ofOutcome
      (Array.replicate inv.count (0 : Elem inv.outType), .ok ())) := by
    unfold launchSeen Registry.lookup
    dsimp only
    rw [show s.registry.get? (.onDevice dtype .cast inv.device s) = _ from
      hs.casts inv.device dtype]
    change (Recipe.effect (d := dtype) inv s .cast).mapError _ = _
    unfold Recipe.effect
    dsimp only
    rw [hinput, houtput]
    change Except.ok (Effect.ofOutcome (Kernel.cast (Elem.cast dtype inv.outType)
      (Array.replicate inv.count 0) (Array.replicate inv.count 0))) = _
    rw [hkernel]
  obtain ⟨t, ht, -, hx⟩ := launch_of_ok hn hlaunch
  have hoverlay : Elem.overlay (Array.replicate inv.count (0 : Elem inv.outType))
      (Array.replicate (s.block inv.output).size 0) =
        Array.replicate (s.block inv.output).size 0 := by
    rw [← Elem.decode_zeros inv.outType inv.count (s.block inv.output).size]
    exact Elem.overlay_decode _ _ _
  have hid : t.modifyDevice inv.device (Effect.restream (.ofOutcome
      (Array.replicate inv.count (0 : Elem inv.outType), .ok ()))) = t :=
    Store.modifyDevice_id inv.device
  unfold Unseen Ends
  rw [hx]
  unfold Effect.store
  rw [hid]
  exact (Store.Resembles.of_binds ht).modifyBytes_unseen hdst hoverlay

end DeviceTensor
