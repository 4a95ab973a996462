import DeviceTensor.Proofs.Kernel.Indexing
import DeviceTensor.Proofs.Routine.Provided
set_option autoImplicit false

/-!
# Launches of sums

A launch that sums looks at its input and its output, and runs its kernel on what it sees.  The rows
of a matrix are summed as the columns of its transpose, in the same order, and a vector is one row
in either order of storage: such launches see the same, and they end alike and leave the same, since
their kernels halt only where a sum traps.
-/

namespace DeviceTensor

open DeviceTensor.Except Kernel

namespace Tensor

/-! ## Ways to sum a buffer -/

/-- Two ways to see a buffer as a matrix and to sum its rows or columns that come to the same. -/
structure SameSums (which : Summation) (g : Grid) (which' : Summation) (g' : Grid) : Prop where
  size : g'.size = g.size
  length : which'.length g'.rows g'.cols = which.length g.rows g.cols
  kernel {α : Type} (A : Arithmetic α) {m dst : Array α} : g.size < Size.limit →
    m.size = g.size → dst.size = which.length g.rows g.cols →
      which'.kernel A m g' dst = which.kernel A m g dst

namespace SameSums

variable {which which' which'' : Summation} {g g' g'' : Grid} {n : Nat}

theorem trans (h : SameSums which g which' g') (h' : SameSums which' g' which'' g'') :
    SameSums which g which'' g'' where
  size := h'.size.trans h.size
  length := h'.length.trans h.length
  kernel A _ _ hsize hm hdst :=
    (h'.kernel A (h.size.symm ▸ hsize) (hm.trans h.size.symm) (hdst.trans h.length.symm)).trans
      (h.kernel A hsize hm hdst)

theorem symm (h : SameSums which g which' g') : SameSums which' g' which g where
  size := h.size.symm
  length := h.length.symm
  kernel A _ _ hsize hm hdst :=
    (h.kernel A (h.size ▸ hsize) (hm.trans h.size) (hdst.trans h.length)).symm

/-- The sums of columns halt only where a sum traps, which does not name the matrix. -/
theorem rows_transpose (g : Grid) : SameSums .rows g .columns g.transpose where
  size := g.size_transpose
  length := rfl
  kernel A m dst hsize hm hdst := by
    refine (sumColumns_transpose A m g dst).trans (Outcome.transposed_of_traps ?_)
    intro e he
    obtain ⟨t, rfl, -⟩ := sumRows_haltsIn A (requireHolds_of_le hsize hm.ge) hdst e he
    exact ⟨t, rfl⟩

theorem columns_transpose (g : Grid) : SameSums .columns g .rows g.transpose := by
  have h := (rows_transpose g.transpose).symm
  have hg : g.transpose.transpose = g := by simp [Grid.transpose]
  rwa [hg] at h

/-- A single row is stored in the same way either way. -/
theorem single_row (n : Nat) : SameSums .columns ⟨1, n, true⟩ .columns ⟨1, n, false⟩ where
  size := rfl
  length := rfl
  kernel A m dst hsize _ _ := by
    have hplace (j : Nat) (hj : j < n) :
        (Grid.mk 1 n false).checkedOffset 0 j = (Grid.mk 1 n true).checkedOffset 0 j := by
      rw [Grid.checkedOffset_of_lt (g := ⟨1, n, false⟩) hsize Nat.one_pos hj,
        Grid.checkedOffset_of_lt hsize Nat.one_pos hj]
      simp [Grid.offset]
    unfold Summation.kernel sumColumns
    refine congrArg (checked _ dst) (funext fun dst' => sweep_congr (fun i hi => ?_) dst')
    obtain rfl : i = 0 := Nat.lt_one_iff.mp (List.mem_range.mp hi)
    refine funext fun _ => congrArg (· >>= _) (foldlM_congr (fun acc j hj => ?_) A.zero)
    unfold addElement
    rw [hplace j (List.mem_range.mp hj)]

end SameSums

/-! ## What a launch sees -/

/-- The invocation that sums the rows or columns of a grid. -/
def sumInvocation (src : BlockId) (device : DeviceId) (output : BlockId) (count : Nat) (g : Grid) :
    Invocation :=
  { device := device, inputs := [src], output := output, count := count, extents := .ofGrid g }

/-- The kernel that sums, on what a launch sees of its blocks. -/
def sumsSeen (which : Summation) (d : ElemType) (src output : BlockId) (g : Grid) (s : Store) :
    Except Fault (Outcome (Elem d)) := do
  let m ← Block.seen src d g.size s
  let dst ← Block.seen output d (which.length g.rows g.cols) s
  return which.kernel (arithmetic d) m g dst

section Launch

variable {which which' : Summation} {d : ElemType} {src output : BlockId} {device : DeviceId}
  {count : Nat} {g g' : Grid} {s : Store} {o : Outcome (Elem d)}

theorem sumsSeen_eq_ok_iff :
    sumsSeen which d src output g s = .ok o ↔ ∃ m, Block.seen src d g.size s = .ok m ∧
      ∃ dst, Block.seen output d (which.length g.rows g.cols) s = .ok dst ∧
        o = which.kernel (arithmetic d) m g dst := by
  refine bind_eq_ok_iff.trans (exists_congr fun m => and_congr_right fun _ => ?_)
  refine bind_eq_ok_iff.trans (exists_congr fun dst => and_congr_right fun _ => ?_)
  exact ⟨fun h => (Except.ok.inj h).symm, fun h => congrArg Except.ok h.symm⟩

/-- Different ways to come to the same sums see the same. -/
theorem SameSums.sumsSeen (h : SameSums which g which' g') (hsize : g.size < Size.limit)
    (d : ElemType) (src output : BlockId) (s : Store) :
    sumsSeen which' d src output g' s = Tensor.sumsSeen which d src output g s := by
  unfold Tensor.sumsSeen
  rw [h.size, h.length]
  cases hm : Block.seen src d g.size s with
  | error f => rfl
  | ok m =>
    cases hdst : Block.seen output d (which.length g.rows g.cols) s with
    | error f => rfl
    | ok dst =>
      exact congrArg Except.ok
        (h.kernel (arithmetic d) hsize (Block.size_of_seen hm) (Block.size_of_seen hdst))

/-- A kernel that sums what it sees halts only where a sum traps. -/
theorem traps_of_sumsSeen (hsize : g.size < Size.limit)
    (h : sumsSeen which d src output g s = .ok o) : FailsIn (fun e => ∃ t, e = .trap t) o.2 := by
  obtain ⟨m, hm, dst, hdst, rfl⟩ := sumsSeen_eq_ok_iff.mp h
  have hholds := requireHolds_of_le hsize (Block.size_of_seen hm).ge
  have hlength := Block.size_of_seen hdst
  cases which with
  | rows =>
    intro e he
    obtain ⟨t, rfl, -⟩ := sumRows_haltsIn (arithmetic d) hholds hlength e he
    exact ⟨t, rfl⟩
  | columns =>
    intro e he
    obtain ⟨t, rfl, -⟩ := sumColumns_haltsIn (arithmetic d) hholds hlength e he
    exact ⟨t, rfl⟩

theorem effect_sums_eq (hsize : g.size < Size.limit) :
    (which.recipe : Recipe d).effect (sumInvocation src device output count g) s =
      ((sumsSeen which d src output g s).map Effect.ofOutcome).mapError .fault := by
  have heffect : (which.recipe : Recipe d).effect (sumInvocation src device output count g) s =
      Invocation.sizeSeen g.checkedSize >>= fun n =>
        (Block.seen src d n s).mapError .fault >>= fun m =>
          (Block.seen output d (which.length g.rows g.cols) s).mapError .fault >>= fun dst =>
            .ok (.ofOutcome (which.kernel (arithmetic d) m g dst)) := by
    cases which <;> rfl
  have hcount : Invocation.sizeSeen g.checkedSize = .ok g.size :=
    Invocation.sizeSeen_eq_ok_iff.mpr (Size.mul_of_lt hsize)
  rw [heffect, hcount]
  unfold sumsSeen
  change (Block.seen src d g.size s).mapError RoutineFailure.fault >>= _ = _
  cases Block.seen src d g.size s with
  | error f => rfl
  | ok m =>
    change (Block.seen output d (which.length g.rows g.cols) s).mapError RoutineFailure.fault >>=
      _ = _
    cases Block.seen output d (which.length g.rows g.cols) s <;> rfl

/-- A launch that sums sees the sums, or why its blocks cannot be seen. -/
theorem launchSeen_sums (src output : BlockId) (count : Nat) (hsize : g.size < Size.limit)
    (hp : s.Provides which.op device (which.recipe : Recipe d)) :
    launchSeen which.op d (sumInvocation src device output count g) s =
      (sumsSeen which d src output g s).map Effect.ofOutcome := by
  rw [Store.Provides.launchSeen (sumInvocation src device output count g) hp, effect_sums_eq hsize]
  cases sumsSeen which d src output g s <;> rfl

/-- A run that sums views its input and its output, and has its kernel work on what it has seen. -/
theorem run_sums_eq (hsize : g.size < Size.limit) :
    (which.recipe : Recipe d).run (sumInvocation src device output count g) =
      (Invocation.perform (Block.view src d g.size) >>= fun m =>
        Invocation.perform (Block.view output d (which.length g.rows g.cols)) >>= fun dst =>
          (sumInvocation src device output count g).settle
            (which.kernel (arithmetic d) m g dst)) := by
  have hrun : (which.recipe : Recipe d).run (sumInvocation src device output count g) =
      Invocation.size g.checkedSize >>= fun n =>
        Invocation.perform (Block.view src d n) >>= fun m =>
          Invocation.perform (Block.view output d (which.length g.rows g.cols)) >>= fun dst =>
            (sumInvocation src device output count g).settle
              (which.kernel (arithmetic d) m g dst) := by
    cases which <;> rfl
  rw [hrun, show g.checkedSize = .ok g.size from Size.mul_of_lt hsize]
  rfl

/-- Runs that come to the same sums are the same, in what they ask of the device also. -/
theorem SameSums.run (h : SameSums which g which' g') (hsize : g.size < Size.limit)
    (src : BlockId) (device : DeviceId) (output : BlockId) (count count' : Nat) :
    (which'.recipe : Recipe d).run (sumInvocation src device output count' g') =
      (which.recipe : Recipe d).run (sumInvocation src device output count g) := by
  rw [run_sums_eq hsize, run_sums_eq (h.size.symm ▸ hsize), h.size, h.length]
  refine Action.bind_congr_of_ok fun m s s₁ hm => ?_
  refine congrFun (Action.bind_congr_of_ok fun dst s₁ s₂ hdst => ?_) s₁
  rw [h.kernel (arithmetic d) hsize (Invocation.size_of_perform_view hm)
    (Invocation.size_of_perform_view hdst)]
  rfl

/-- A run that sums fails with faults, which are known without its key. -/
theorem run_sums_faults (hsize : g.size < Size.limit) (s : Store) :
    FailsIn (fun e => ∃ f, e = .fault f)
      ((which.recipe : Recipe d).run (sumInvocation src device output count g) s).1 := by
  rcases (Recipe.run_settles (sumInvocation src device output count g) which.recipe).ends s
    False.elim with hstops | hyields
  · exact hstops.refused.failsIn fun e he => RoutineFailure.exists_fault_of_refuses he
  rw [effect_sums_eq hsize] at hyields
  cases hsums : sumsSeen which d src output g s with
  | error f =>
    rw [hsums] at hyields
    obtain ⟨s', -, hrun⟩ := hyields
    rw [hrun]
    exact .error ⟨f, rfl⟩
  | ok o =>
    rw [hsums] at hyields
    obtain ⟨s', -, -, hrun⟩ := hyields
    rw [hrun]
    refine (traps_of_sumsSeen hsize hsums).mapError ?_
    rintro e ⟨t, rfl⟩
    exact ⟨.trap t, rfl⟩

/-- Launches that come to the same sums are the same. -/
theorem SameSums.launch (h : SameSums which g which' g') (hsize : g.size < Size.limit)
    (hp : s.Provides which.op device (which.recipe : Recipe d))
    (hp' : s.Provides which'.op device (which'.recipe : Recipe d)) (src output : BlockId)
    (count count' : Nat) :
    launch which'.op d (sumInvocation src device output count' g') s =
      launch which.op d (sumInvocation src device output count g) s := by
  rw [Store.Provides.launch (sumInvocation src device output count g) hp,
    Store.Provides.launch (sumInvocation src device output count' g') hp',
    h.run hsize src device output count count', Action.mapError_apply, Action.mapError_apply]
  have hfaults : FailsIn (fun e => ∃ f, e = .fault f)
      ((which.recipe : Recipe d).run (sumInvocation src device output count g) s).1 :=
    run_sums_faults hsize s
  refine Prod.ext ?_ rfl
  cases hrun : ((which.recipe : Recipe d).run (sumInvocation src device output count g) s).1 with
  | ok u => rfl
  | error e =>
    obtain ⟨f, rfl⟩ := hfaults e hrun
    rfl

end Launch

end Tensor

end DeviceTensor
