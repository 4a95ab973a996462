import DeviceTensor.Proofs.Routine.Mirror
import DeviceTensor.Proofs.Store.Resemblance
import DeviceTensor.Proofs.Tensor.Work
set_option autoImplicit false

/-!
# Actions on stores that resemble each other

An action tracks on two stores, `Action.Tracks`, if it ends the same way on both and leaves stores
that resemble each other, or if one of its runs ends because a device refuses memory.  Views,
writes, copies and launches track on stores that resemble each other, as long as the block that
they write has a holder and devices never refuse to copy.
-/

namespace DeviceTensor

namespace Action

variable {α β : Type} {s s' : Store}

/-! ## Tracking -/

/-- The action ends the same way on both stores and leaves stores that resemble each other. -/
structure Same {ε : Type} (x : Action ε α) (s s' : Store) : Prop where
  result : (x s').1 = (x s).1
  store : (x s).2.Resembles (x s').2
  extend : s.Extends (x s).2

/-- The action does the same on both stores, unless memory is refused. -/
def Tracks (x : Action Fault α) (s s' : Store) : Prop :=
  Except.Refused (x s).1 ∨ Except.Refused (x s').1 ∨ x.Same s s'

/-- Stores are tidied up alike. -/
structure Tidies (f : Store → Store) : Prop where
  resembles : ∀ {t t' : Store}, t.Resembles t' → (f t).Resembles (f t')
  extend : ∀ t : Store, t.Extends (f t)

namespace Tracks

theorem of_same {x : Action Fault α} (h : x.Same s s') : x.Tracks s s' := .inr (.inr h)

/-- Another action that runs alike on both stores. -/
theorem congr {x y : Action Fault α} (hy : y.Tracks s s') (h : x s = y s) (h' : x s' = y s') :
    x.Tracks s s' := by
  unfold Tracks
  rw [h, h']
  refine hy.imp_right (.imp_right fun hy => ⟨?_, ?_, ?_⟩)
  · rw [h, h', hy.result]
  · rw [h, h']
    exact hy.store
  · rw [h]
    exact hy.extend

theorem pure (hs : s.Resembles s') (a : α) : (Pure.pure a : Action Fault α).Tracks s s' :=
  of_same ⟨rfl, hs, .refl s⟩

theorem fail (hs : s.Resembles s') (f : Fault) : (Action.fail f : Action Fault α).Tracks s s' :=
  of_same ⟨rfl, hs, .refl s⟩

theorem inspect (hs : s.Resembles s') {f : Store → α} (hf : f s' = f s) :
    (Action.inspect f).Tracks s s' := of_same ⟨congrArg Except.ok hf, hs, .refl s⟩

theorem examine (hs : s.Resembles s') {f : Store → Except Fault α} (hf : f s' = f s) :
    (Action.examine f).Tracks s s' := of_same ⟨hf, hs, .refl s⟩

theorem ofExcept (hs : s.Resembles s') (x : Except Fault α) : (Action.ofExcept x).Tracks s s' :=
  of_same ⟨rfl, hs, .refl s⟩

theorem change {f : Store → Store} (hf : (f s).Resembles (f s')) (he : s.Extends (f s)) :
    (Action.change f).Tracks s s' := of_same ⟨rfl, hf, he⟩

/-- Both sides tidy up. -/
theorem tidy (hs : s.Resembles s') {f : Store → Store} (hf : Tidies f) :
    (Action.change f).Tracks s s' := change (hf.resembles hs) (hf.extend s)

/-- A look at the store that sees the same. -/
theorem of_reads {bs : List BlockId} {x : Action Fault α} {p : Store → Except Fault α}
    (h : Reads bs x p) (hs : s.Resembles s') (hp : p s' = p s) : x.Tracks s s' := by
  rcases h.result s with hr | ⟨hrefused, -⟩
  · rcases h.result s' with hr' | ⟨hrefused, -⟩
    · refine of_same ⟨?_, hs.binds (h.binds s) (h.binds s'), (h.binds s).evolves⟩
      rw [hr, hr', hp]
    · exact .inr (.inl hrefused)
  · exact .inl hrefused

theorem bind {x : Action Fault α} {next : α → Action Fault β} (hx : x.Tracks s s')
    (hn : ∀ a t t', x s = (.ok a, t) → x s' = (.ok a, t') → t.Resembles t' → s.Extends t →
      (next a).Tracks t t') : (x >>= next).Tracks s s' := by
  rcases hx with h | h | ⟨hr, hs, he⟩
  · exact .inl (refused_bind h)
  · exact .inr (.inl (refused_bind h))
  · cases hxs : x s with
    | mk r t =>
      cases hxs' : x s' with
      | mk r' t' =>
        rw [hxs, hxs'] at hr hs
        rw [hxs] at he
        change r' = r at hr
        subst hr
        have hrun : (x >>= next) s = _ := bind_apply x next s
        have hrun' : (x >>= next) s' = _ := bind_apply x next s'
        rw [hxs] at hrun
        rw [hxs'] at hrun'
        cases r' with
        | error f =>
          refine of_same ⟨?_, ?_, ?_⟩ <;> rw [hrun]
          · rw [hrun']
          · rw [hrun']
            exact hs
          · exact he
        | ok a =>
          unfold Tracks
          rw [hrun, hrun']
          refine (hn a t t' hxs hxs' hs he).imp_right (.imp_right fun h => ?_)
          refine ⟨?_, ?_, ?_⟩ <;> rw [hrun]
          · rw [hrun']
            exact h.result
          · rw [hrun']
            exact h.store
          · exact he.trans h.extend

/-- A result that is made of the result of an action. -/
theorem bind_pure {x : Action Fault α} (hx : x.Tracks s s') (f : α → β) :
    (x >>= fun a => Pure.pure (f a)).Tracks s s' :=
  .bind hx fun a _ _ _ _ h _ => .pure h (f a)

/-- A step that looks at the store and sees the same. -/
theorem inspect_bind (hs : s.Resembles s') {f : Store → α} {next : α → Action Fault β}
    (hf : f s' = f s) (hn : (next (f s)).Tracks s s') :
    (Action.inspect f >>= next).Tracks s s' := by
  refine .bind (.inspect hs hf) fun a t t' h h' _ _ => ?_
  obtain ⟨ha, rfl⟩ := Prod.mk.inj h
  obtain ⟨-, rfl⟩ := Prod.mk.inj h'
  exact Except.ok.inj ha ▸ hn

/-- A step that checks the store and sees the same. -/
theorem examine_bind (hs : s.Resembles s') {f : Store → Except Fault α}
    {next : α → Action Fault β} (hf : f s' = f s) (hn : ∀ a, f s = .ok a → (next a).Tracks s s') :
    (Action.examine f >>= next).Tracks s s' := by
  refine .bind (.examine hs hf) fun a t t' h h' _ _ => ?_
  obtain ⟨ha, rfl⟩ := Action.examine_eq_ok_iff.mp h
  obtain ⟨-, rfl⟩ := Action.examine_eq_ok_iff.mp h'
  exact hn a ha

theorem ofExcept_bind (hs : s.Resembles s') {x : Except Fault α} {next : α → Action Fault β}
    (hn : ∀ a, x = .ok a → (next a).Tracks s s') : (Action.ofExcept x >>= next).Tracks s s' :=
  examine_bind hs (f := fun _ => x) rfl hn

theorem acquire (hs : s.Resembles s') (d : DeviceId) (n : Nat) :
    (Action.changing (Store.acquire · d n) : Action Fault BlockId).Tracks s s' :=
  of_same ⟨congrArg Except.ok hs.blocks, hs.acquire d n, s.extends_acquire d n⟩

/-- A new block on both sides. -/
theorem acquire_bind (hs : s.Resembles s') (d : DeviceId) (n : Nat)
    {next : BlockId → Action Fault β}
    (hn : (s.acquire d n).2.Resembles (s'.acquire d n).2 →
      (next s.blocks.size).Tracks (s.acquire d n).2 (s'.acquire d n).2) :
    (Action.changing (Store.acquire · d n) >>= next).Tracks s s' := by
  refine .bind (acquire hs d n) fun b t t' h h' ht _ => ?_
  obtain ⟨ha, rfl⟩ := Prod.mk.inj h
  obtain ⟨-, rfl⟩ := Prod.mk.inj h'
  exact Except.ok.inj ha ▸ hn ht

theorem onFailure {f : Store → Store} {x : Action Fault α} (hx : x.Tracks s s') (hf : Tidies f) :
    (x.onFailure f).Tracks s s' := by
  unfold Tracks
  rw [onFailure_fst, onFailure_fst]
  refine hx.imp_right (.imp_right fun ⟨hr, hs, he⟩ => ⟨?_, ?_, ?_⟩)
  · rw [onFailure_fst, onFailure_fst, hr]
  · unfold Action.onFailure
    cases hxs : x s with
    | mk r t =>
      cases hxs' : x s' with
      | mk r' t' =>
        rw [hxs, hxs'] at hr hs
        change r' = r at hr
        subst hr
        cases r' with
        | ok a => exact hs
        | error e => exact hf.resembles hs
  · unfold Action.onFailure
    cases hxs : x s with
    | mk r t =>
      rw [hxs] at he
      cases r with
      | ok a => exact he
      | error e => exact he.trans (hf.extend t)

theorem thenTidy {f : Store → Store} {x : Action Fault α} (hx : x.Tracks s s') (hf : Tidies f) :
    (x.thenTidy f).Tracks s s' :=
  Or.imp_right (.imp_right fun ⟨hr, hs, he⟩ => ⟨hr, hf.resembles hs, he.trans (hf.extend _)⟩) hx

theorem ite {c : Prop} [Decidable c] {x y : Action Fault α} (hx : c → x.Tracks s s')
    (hy : ¬c → y.Tracks s s') : (if c then x else y).Tracks s s' := by
  split
  · exact hx ‹_›
  · exact hy ‹_›

end Tracks

theorem tidies_release (b : BlockId) : Tidies (Store.release · b) :=
  ⟨fun h => h.release b, fun t => Store.extends_release t b⟩

/-! ## Work that is not seen -/

/-- The action succeeds and leaves a store that resembles the one before, unless memory is
refused. -/
def Unseen (x : Action Fault Unit) (s : Store) : Prop :=
  x.Ends s (fun _ t => s.Resembles t) fun f _ => f.refusesMemory = true

theorem Tracks.of_unseen {x : Action Fault Unit} (hs : s.Resembles s') (h : x.Unseen s)
    (h' : x.Unseen s') : x.Tracks s s' := by
  unfold Unseen Ends at h h'
  unfold Tracks
  cases hx : x s with
  | mk r t =>
    cases hx' : x s' with
    | mk r' t' =>
      rw [hx] at h
      rw [hx'] at h'
      cases r with
      | error f => exact .inl h
      | ok u =>
        cases r' with
        | error f => exact .inr (.inl h')
        | ok u =>
          refine .inr (.inr ⟨?_, ?_, ?_⟩) <;> rw [hx]
          · rw [hx']
          · rw [hx']
            exact (h.symm.trans hs).trans h'
          · exact h.shows.toExtends

end Action

open DeviceTensor.Action

variable {s s' : Store}

/-- Every device makes the copies that it is asked for and waits for them, whatever it was asked for
before. -/
structure Store.Copies (s : Store) : Prop where
  performs : ∀ dst src n earlier, (s.device (if s.backend dst = .cpp then src else dst)).answers
    earlier (.copy n (.between (s.backend src) (s.backend dst))) = .ok ()
  waits : ∀ d earlier, (s.device d).answers earlier .wait = .ok ()

/-! ## Views and writes -/

namespace Block

theorem bindMemory_tracks (hs : s.Resembles s') (b : BlockId) : (bindMemory b).Tracks s s' :=
  .of_reads (bindMemory_reads (List.mem_singleton_self b)) hs rfl

theorem view_tracks (hs : s.Resembles s') (b : BlockId) (d : ElemType) (count : Nat) :
    (view b d count).Tracks s s' :=
  .of_reads (view_reads (List.mem_singleton_self b) d count) hs (seen_congr (hs.sight b) d count)

theorem extends_modifyBytes (s : Store) (b : BlockId) (f : Array UInt8 → Array UInt8) :
    s.Extends (modifyBytes b f s) := by
  rw [modifyBytes_eq]
  exact ⟨fun _ => rfl, rfl, rfl, Nat.le_of_eq (Store.size_blocks_modifyBlock b _).symm,
    fun c _ => Store.modifyBlock_keeps Block.device rfl c,
    fun c _ => Store.modifyBlock_keeps Block.size rfl c⟩

/-- Both sides change the bytes of a block that has a holder and memory. -/
theorem modifyBytes_tracks (hs : s.Resembles s') {b : BlockId} (hpos : 0 < (s.block b).handles)
    (hm : (s.block b).memory ≠ .unbound) (hm' : (s'.block b).memory ≠ .unbound)
    (f : Array UInt8 → Array UInt8) :
    (Action.change (modifyBytes b f) : Action Fault Unit).Tracks s s' :=
  .change (hs.modifyBytes ((hs.block b).memory_eq hpos hm hm') f) (extends_modifyBytes s b f)

/-- Memory is asked for, and is there from then on. -/
theorem bindMemory_bind {α : Type} (hs : s.Resembles s') {b : BlockId}
    (hpos : 0 < (s.block b).handles) {next : Unit → Action Fault α}
    (hn : ∀ t t', t.Resembles t' → s.Binds t → 0 < (t.block b).handles →
      (t.block b).memory ≠ .unbound → (t'.block b).memory ≠ .unbound → (next ()).Tracks t t') :
    (bindMemory b >>= next).Tracks s s' := by
  have hlt := Store.lt_of_handles hpos
  refine .bind (bindMemory_tracks hs b) fun _ t t' h h' ht _ => ?_
  have hb := bindMemory_binds b s
  rw [h] at hb
  refine hn t t' ht hb ?_ (bindMemory_memory hlt h) (bindMemory_memory (hs.blocks.symm ▸ hlt) h')
  rw [hb.handles]
  exact hpos

theorem write_tracks {d : ElemType} (hs : s.Resembles s') {b : BlockId}
    (hpos : 0 < (s.block b).handles) (xs : Array (Elem d)) : (write b xs).Tracks s s' := by
  refine .examine_bind hs (checkView_congr (hs.sight b) d xs.size) fun _ _ => ?_
  exact bindMemory_bind hs hpos fun t t' ht _ hpos hm hm' => modifyBytes_tracks ht hpos hm hm' _

/-! ## Copies -/

/-- A question that a device answers whatever it was asked before. -/
theorem request_tracks (hs : s.Resembles s') {d : DeviceId} {r : Request}
    (hr : ∀ earlier, (s.device d).answers earlier r = .ok ()) (fault : DeviceFailure → Fault) :
    (Action.request d r fault).Tracks s s' := by
  have hanswers := Device.answers_of_description (hs.description d)
  refine .of_same ⟨?_, hs.modifyDevice d fun _ _ hk => hk, (request_keeps d r fault s).extend⟩
  unfold Action.request Device.answer
  rw [hanswers, hr, hr]

/-- Both sides move the same bytes into memory that is the same. -/
theorem moveBytes_tracks (hs : s.Resembles s') {dst : Range}
    (hm : (s'.block dst.block).memory = (s.block dst.block).memory) {executor : DeviceId}
    {direction : Direction} {n : Nat}
    (hcopy : ∀ earlier, (s.device executor).answers earlier (.copy n direction) = .ok ())
    (hwait : ∀ earlier, (s.device executor).answers earlier .wait = .ok ()) (src : Range) :
    (moveBytes executor direction dst src n).Tracks s s' := by
  refine .bind (request_tracks hs hcopy _) fun _ t t' h h' ht he => ?_
  obtain ⟨-, rfl⟩ := Prod.mk.inj h
  obtain ⟨-, rfl⟩ := Prod.mk.inj h'
  have htallied := ht.modifyDevice executor (f := Device.tallied) fun _ _ hk => hk
  refine .bind (.change ?_ ?_) fun _ u u' _ _ hu hu' => request_tracks hu ?_ _
  · unfold splice
    dsimp only
    rw [(htallied.block src.block).contents]
    exact htallied.modifyBytes hm _
  · have htally := Store.keeps_modifyDevice (s.modifyDevice executor (·.after (.copy n direction)))
      executor (f := Device.tallied) rfl
    exact htally.extend.trans (extends_modifyBytes _ _ _)
  · rw [Device.answers_of_description ((he.trans hu').device executor)]
    exact hwait

theorem copy_tracks (hs : s.Resembles s') (hcopies : s.Copies) {dst : Range}
    (hpos : 0 < (s.block dst.block).handles) (src : Range) (n : Nat) :
    (copy dst src n).Tracks s s' := by
  have hbackend (b : BlockId) : (s'.owner b).backend = (s.owner b).backend :=
    Device.backend_of_description (Device.description_of_unaccounted (hs.owner b))
  have hcheck : checkCopy dst src n s' = checkCopy dst src n s := by
    unfold checkCopy
    rw [(hs.block dst.block).size, (hs.block src.block).size]
  have hdirection : directionOf dst.block src.block s' = directionOf dst.block src.block s := by
    unfold directionOf
    rw [hbackend, hbackend]
  have hexecutor : copyExecutor dst.block src.block s' = copyExecutor dst.block src.block s := by
    unfold copyExecutor
    rw [hbackend, (hs.block dst.block).place, (hs.block src.block).place]
  refine .examine_bind hs hcheck fun _ _ => .ite (fun _ => .pure hs ()) fun _ => ?_
  refine .inspect_bind hs hdirection (.inspect_bind hs hexecutor ?_)
  refine bindMemory_bind hs hpos fun t t' ht hst hpos hm hm' => ?_
  refine .bind (bindMemory_tracks ht src.block) fun _ u u' h h' hu _ => ?_
  have hb := bindMemory_binds src.block t
  have hb' := bindMemory_binds src.block t'
  rw [h] at hb
  rw [h'] at hb'
  have hanswers := Device.answers_of_description
    ((hst.trans hb).evolves.device (copyExecutor dst.block src.block s))
  refine moveBytes_tracks hu ?_ ?_ ?_ src
  · rw [hb.memory_of_ne hm, hb'.memory_of_ne hm']
    exact (ht.block dst.block).memory_eq hpos hm hm'
  · rw [hanswers]
    exact hcopies.performs (s.block dst.block).device (s.block src.block).device n
  · rw [hanswers]
    exact hcopies.waits _

end Block

/-! ## Launches -/

namespace Invocation

/-- An invocation mirrors itself on a store that resembles its own. -/
theorem mirrors_self (hs : s.Resembles s') {inv : Invocation} (h : inv.output < s.blocks.size) :
    inv.Mirrors s inv s' where
  same := rfl
  inputs := List.map_congr_left fun b _ => hs.sight b
  shows := hs.shows
  output := h

end Invocation

/-- What an effect does to an output that is ready on both sides. -/
theorem Effect.store_resembles {inv : Invocation} (e : Effect) (hs : s.Resembles s')
    (hpos : 0 < (s.block inv.output).handles) (hready : inv.Ready s ∨ e.change = id)
    (hready' : inv.Ready s' ∨ e.change = id) : (e.store inv s).Resembles (e.store inv s') := by
  have hid (s : Store) : Block.modifyBytes inv.output id s = s := by
    have hmap : (fun k : Block => { k with memory := k.memory.map id }) = id := by
      funext k
      obtain ⟨_, _, _, m⟩ := k
      cases m <;> rfl
    rw [Block.modifyBytes_eq, hmap, Store.modifyBlock_id]
  have hstreamed : (s.modifyDevice inv.device e.restream).Resembles
      (s'.modifyDevice inv.device e.restream) := by
    refine hs.modifyDevice inv.device fun k k' hk => ?_
    unfold restream
    split
    · rename_i stream _
      have hstream := congrArg (fun d : Device => { d with stream := stream }) hk
      exact hstream
    · exact hk
  unfold store
  rcases hready with hready | hchange
  · rcases hready' with hready' | hchange
    · have hlt := Store.lt_of_handles hpos
      have hm := (hs.block inv.output).memory_eq hpos (hready hlt)
        (hready' (hs.blocks.symm ▸ hlt))
      exact hstreamed.modifyBytes hm e.change
    · rw [hchange, hid, hid]
      exact hstreamed
  · rw [hchange, hid, hid]
    exact hstreamed

/-- Work that looks and then has one effect, if it sees the same effect on both sides and is not
stopped on either. -/
theorem Invocation.Settles.same {inv : Invocation} {x : Work Unit}
    {p : Store → Except RoutineFailure Effect} (h : inv.Settles False x p) (hs : s.Resembles s')
    (hpos : 0 < (s.block inv.output).handles) (hp : p s' = p s) (hn : ¬inv.Stops x s)
    (hn' : ¬inv.Stops x s') : x.Same s s' := by
  have hyields := (h.ends s False.elim).resolve_left hn
  have hyields' := (h.ends s' False.elim).resolve_left hn'
  rw [hp] at hyields'
  have hboth : (x s').1 = (x s).1 ∧ (x s).2.Resembles (x s').2 := by
    cases he : p s with
    | error e =>
      rw [he] at hyields hyields'
      obtain ⟨t, ht, hx⟩ := hyields
      obtain ⟨t', ht', hx'⟩ := hyields'
      rw [hx, hx']
      exact ⟨rfl, hs.binds ht ht'⟩
    | ok e =>
      rw [he] at hyields hyields'
      obtain ⟨t, ht, hr, hx⟩ := hyields
      obtain ⟨t', ht', hr', hx'⟩ := hyields'
      rw [hx, hx']
      exact ⟨rfl, e.store_resembles (hs.binds ht ht') (ht.handles _ ▸ hpos) hr hr'⟩
  exact ⟨hboth.1, hboth.2, (h.keeps s).extend⟩

/-- What is the same is so with its failures renamed. -/
theorem Action.Same.mapError {ε ε' α : Type} {x : Action ε α} (h : x.Same s s') (f : ε → ε') :
    (x.mapError f).Same s s' := by
  have hrun (s : Store) : x.mapError f s = ((x s).1.mapError f, (x s).2) := by
    unfold Action.mapError
    cases x s with
    | mk r t => cases r <;> rfl
  refine ⟨?_, ?_, ?_⟩
  · rw [hrun, hrun, h.result]
  · rw [hrun, hrun]
    exact h.store
  · rw [hrun]
    exact h.extend

/-- A routine does the same on both sides, unless memory is refused. -/
theorem Routine.run_tracks (hs : s.Resembles s') {inv : Invocation}
    (hpos : 0 < (s.block inv.output).handles) (routine : Routine) :
    Except.Refused (routine.run inv s).1 ∨ Except.Refused (routine.run inv s').1 ∨
      (routine.run inv).Same s s' := by
  by_cases hn : inv.Stops (routine.run inv) s
  · exact .inl hn.refused
  by_cases hn' : inv.Stops (routine.run inv) s'
  · exact .inr (.inl hn'.refused)
  have heffect := routine.effect_of_mirrors
    (Invocation.mirrors_self hs (Store.lt_of_handles hpos))
  exact .inr (.inr ((routine.run_settles inv).same hs hpos heffect hn hn'))

theorem launch_tracks (hs : s.Resembles s') {inv : Invocation}
    (hpos : 0 < (s.block inv.output).handles) (op : Operation) (dtype : ElemType) :
    (launch op dtype inv).Tracks s s' := by
  have hkey := RoutineKey.onDevice_of_mirrors
    (Invocation.mirrors_self hs (Store.lt_of_handles hpos)) op dtype
  cases hlookup : s.registry.lookup (RoutineKey.onDevice dtype op inv.device s) with
  | error e =>
    have hrun : launch op dtype inv s = (.error (.launch e), s) := by rw [launch_eq, hlookup]
    have hrun' : launch op dtype inv s' = (.error (.launch e), s') := by
      rw [launch_eq, hs.registry, hkey, hlookup]
    exact .congr (.fail hs (.launch e)) hrun hrun'
  | ok routine =>
    let key := RoutineKey.onDevice dtype op inv.device s
    have hrun : launch op dtype inv s =
        (routine.run inv).mapError (RoutineFailure.toFault key) s := by
      rw [launch_eq, hlookup]
    have hrun' : launch op dtype inv s' =
        (routine.run inv).mapError (RoutineFailure.toFault key) s' := by
      rw [launch_eq, hs.registry, hkey, hlookup]
    refine .congr ?_ hrun hrun'
    have hrefused {t : Store} (h : Except.Refused (routine.run inv t).1) :
        Except.Refused ((routine.run inv).mapError (RoutineFailure.toFault key) t).1 := by
      rw [mapError_apply]
      exact h.mapError fun e he => (RoutineFailure.refuses_toFault key e).trans he
    exact (routine.run_tracks hs hpos).imp hrefused (.imp hrefused fun hsame => hsame.mapError _)

end DeviceTensor
