import DeviceTensor.Proofs.Routine.Summation
import DeviceTensor.Proofs.Tensor.Exchange
import DeviceTensor.Proofs.Tensor.Mean
set_option autoImplicit false

/-!
# Sums by axis and by rows and columns

A sum along an axis and a sum of rows or columns are both one launch on a tensor that is made for
it; they differ in how they see the tensor as a matrix.  Where they come to the same sums, the
results are the same or the failures are.  A sum over the transpose of a matrix is a sum of the
other kind over the matrix, and a vector is summed along its axis as the columns of a single row.
-/

namespace DeviceTensor.Tensor

open DeviceTensor.Except Kernel

variable {t t' : Tensor} {s : Store} {src : BlockId} {which which' : Summation} {g g' : Grid}
  {rows cols n : Nat}

/-! ## Sums of a grid -/

/-- The number of sums of a grid. -/
def Summation.count (which : Summation) (g : Grid) : Nat := which.length g.rows g.cols

/-- The vector of the sums of the rows or columns of a grid. -/
def summed (which : Summation) (g : Grid) (t : Tensor) : Action Fault Tensor :=
  building (onDevice [which.count g] t.device t.dtype) fun out => do
    let inv ← Action.examine (planSums t out (which.count g) g)
    launch which.op t.dtype inv

theorem sums_eq (h : t.asMatrix = .ok (rows, cols)) :
    t.sums which = summed which ⟨rows, cols, t.transposed⟩ t := by
  have hwork : sumsTo which t = fun out => Action.examine
      (planSums t out (which.count ⟨rows, cols, t.transposed⟩) ⟨rows, cols, t.transposed⟩) >>=
        launch which.op t.dtype := by
    funext out
    have hplan : planSumsOf which t out =
        planSums t out (which.length rows cols) ⟨rows, cols, t.transposed⟩ := by
      funext s
      unfold planSumsOf
      rw [h]
      rfl
    unfold sumsTo
    rw [hplan]
    rfl
  funext s
  unfold sums summed
  rw [Action.ofExcept_bind_apply h, hwork]
  rfl

theorem sumAxis_eq {axis : Nat} {c : Collapse} (h : t.collapse axis = .ok c) :
    t.sumAxis axis = summed c.which c.grid t := by
  have hlength : c.length = c.which.count c.grid := (size_of_collapse h).2
  have hwork : sumAxisTo t axis = fun out => Action.examine
      (planSums t out (c.which.count c.grid) c.grid) >>= launch c.which.op t.dtype := by
    funext out s
    unfold sumAxisTo
    rw [Action.ofExcept_bind_apply h, hlength]
  funext s
  unfold sumAxis summed
  rw [Action.ofExcept_bind_apply h, hwork, hlength]

/-- The sums of a grid are one launch, on a tensor that is made for them. -/
theorem summed_eq (hb : t.block = some src) :
    summed which g t s =
      match Shape.byteSize [which.count g] t.dtype with
      | .ok n => (t.lineResult (which.count g) s).delivered
          (launch which.op t.dtype (sumInvocation src t.device s.blocks.size
            (t.count (s.acquire t.device n).2) g) (s.acquire t.device n).2)
      | .error f => (.error f, s) := by
  unfold summed
  cases hn : Shape.byteSize [which.count g] t.dtype with
  | error f =>
    unfold building
    rw [Action.bind_apply, onDevice_eq, hn]
  | ok n =>
    let s' := (s.acquire t.device n).2
    have hmade : onDevice [which.count g] t.device t.dtype s =
        (.ok (t.lineResult (which.count g) s), s') := by
      rw [onDevice_eq, hn]
      rfl
    have hcount : (t.lineResult (which.count g) s).count s' = which.count g :=
      ((fills_acquire hn t.device false s).count rfl).trans List.prod_singleton
    have hplan : planSums t (t.lineResult (which.count g) s) (which.count g) g s' =
        .ok (sumInvocation src t.device s.blocks.size (t.count s') g) :=
      planSums_eq_ok_iff.mpr ⟨⟨⟨rfl, rfl⟩, hcount⟩, s.blocks.size, rfl, src, hb, rfl⟩
    rw [building_apply hmade, Action.examine_bind_apply hplan]

/-- The tensor that is made for sums is new. -/
theorem owned_lineResult (ho : t.Owned s) {length bytes : Nat}
    (hn : Shape.byteSize [length] t.dtype = .ok bytes) :
    (t.lineResult length s).Owned (s.acquire t.device bytes).2 where
  valid := (fills_acquire hn t.device false s).valid rfl nofun
  holds := by
    obtain ⟨hs, hh, -⟩ := ho.holds
    exact ⟨_, hh.acquire t.device bytes,
      fun b hb => List.mem_cons.mpr (.inl (List.mem_singleton.mp hb))⟩

section Runs

variable (hb : t.block = some src) {bytes : Nat}
  (hn : Shape.byteSize [which.count g] t.dtype = .ok bytes) (hsize : g.size < Size.limit)
  (hp : s.Provides which.op t.device (which.recipe : Recipe t.dtype))

include hb hn hsize hp

/-- Sums of what is seen that end without a trap are the result. -/
theorem summed_of_seen (ho : t.Owned s) (hnot : ¬Refused (summed which g t s).1)
    {xs : Array (Elem t.dtype)}
    (hxs : xs.size = which.count g)
    (h : sumsSeen which t.dtype src s.blocks.size g (s.acquire t.device bytes).2 =
      .ok (xs, .ok ())) :
    ∃ s₁, summed which g t s = (.ok (t.lineResult (which.count g) s), s₁) ∧
      (t.lineResult (which.count g) s).stored t.dtype s₁ = xs := by
  let s' := (s.acquire t.device bytes).2
  let inv := sumInvocation src t.device s.blocks.size (t.count s') g
  have hextends : s.Extends s' := s.extends_acquire t.device bytes
  have hseen : launchSeen which.op t.dtype inv s' = .ok (.ofOutcome (xs, .ok ())) := by
    rw [launchSeen_sums _ _ _ hsize
      (hp.congr hextends.registry (hextends.backend t.device)), h]
    rfl
  have hcount : (t.lineResult (which.count g) s).count s' = which.count g :=
    ((fills_acquire hn t.device false s).count rfl).trans List.prod_singleton
  rw [summed_eq hb, hn] at hnot
  obtain ⟨hrun, -, hstored⟩ := launch_outcome inv (owned_lineResult ho hn) rfl rfl
    (hxs.trans hcount.symm) (mt refused_delivered.mpr hnot) hseen
  refine ⟨_, ?_, hstored⟩
  rw [summed_eq hb, hn]
  exact delivered_of_ok hrun

/-- Sums that have a result have seen their blocks. -/
theorem sumsSeen_of_summed {out : Tensor} (h : (summed which g t s).1 = .ok out) :
    ∃ o, sumsSeen which t.dtype src s.blocks.size g (s.acquire t.device bytes).2 = .ok o := by
  let s' := (s.acquire t.device bytes).2
  have hextends : s.Extends s' := s.extends_acquire t.device bytes
  cases hsums : sumsSeen which t.dtype src s.blocks.size g s' with
  | ok o => exact ⟨o, rfl⟩
  | error f =>
    have hnot : ¬Refused (summed which g t s).1 := by
      rw [h]
      exact id
    rw [summed_eq hb, hn] at h hnot
    have hrun : (launch which.op t.dtype
        (sumInvocation src t.device s.blocks.size (t.count s') g) s').1 = .error f := by
      rw [launch_result (Invocation.not_stops_of_not_refused (mt refused_delivered.mpr hnot)),
        launchSeen_sums _ _ _ hsize (hp.congr hextends.registry (hextends.backend t.device)), hsums]
      rfl
    dsimp only at h
    rw [delivered_of_error hrun] at h
    cases h

end Runs

/-- Tensors on one block have the same sums, if their grids come to the same. -/
theorem summed_same (hb : t.block = some src) (hb' : t'.block = some src)
    (hdtype : t'.dtype = t.dtype) (hdevice : t'.device = t.device)
    (h : SameSums which g which' g') (hsize : g.size < Size.limit)
    (hp : ∀ which : Summation, s.Provides which.op t.device (which.recipe : Recipe t.dtype)) :
    SameElements [which.count g] [which.count g] (summed which g t s) (summed which' g' t' s) := by
  have hcount : which'.count g' = which.count g := h.length
  have hmade : t'.lineResult (which.count g) s = t.lineResult (which.count g) s := by
    unfold lineResult
    rw [hdtype, hdevice]
  rw [summed_eq hb, summed_eq hb', hcount, hdtype, hdevice, hmade]
  cases hn : Shape.byteSize [which.count g] t.dtype with
  | error f => rfl
  | ok n =>
    let s' := (s.acquire t.device n).2
    have hextends : s.Extends s' := s.extends_acquire t.device n
    have hprovides (which : Summation) :
        s'.Provides which.op t.device (which.recipe : Recipe t.dtype) :=
      (hp which).congr hextends.registry (hextends.backend t.device)
    dsimp only
    rw [h.launch hsize (hprovides which) (hprovides which') src s.blocks.size (t.count s')
      (t'.count s')]
    exact .delivered rfl ⟨rfl, rfl, rfl, rfl, rfl, fun _ => rfl⟩

/-- Another handle on a block makes no difference to sums. -/
theorem summed_retain (hb : t.block = some src) {k : BlockId} (hk : k < s.blocks.size) :
    SameElements [which.count g] [which.count g] (summed which g t s)
      (summed which g t (s.retain k)) := by
  have hmade : t.lineResult (which.count g) (s.retain k) = t.lineResult (which.count g) s := by
    unfold lineResult
    rw [Store.size_blocks_retain]
  rw [summed_eq hb, summed_eq hb, hmade, Store.size_blocks_retain]
  cases Shape.byteSize [which.count g] t.dtype with
  | error f => rfl
  | ok n =>
    dsimp only
    rw [Store.acquire_retain hk, count_retain, launch_heedless]
    exact .delivered rfl ⟨rfl, rfl, rfl, rfl, rfl, fun d => stored_retain _ d _ k⟩

theorem size_grid_lt (ho : t.Owned s) (hb : t.block = some src) : t.grid.size < Size.limit := by
  rw [size_grid, ← (ho.valid.filled src hb).count hb]
  exact Calculation.count_lt_limit ho hb

/-! ## Matrices -/

/-- The axis along which the rows or columns of a matrix are summed. -/
def Summation.axis (which : Summation) : Nat :=
  match which with
  | .rows => 0
  | .columns => 1

/-- The sums of the transpose that add up the same elements. -/
def Summation.exchanged (which : Summation) : Summation :=
  match which with
  | .rows => .columns
  | .columns => .rows

/-- The sums of the rows or columns of the transpose. -/
def sumsOfTranspose (which : Summation) (t : Tensor) : Action Fault Tensor := do
  let view ← t.transpose
  view.sums which

/-- The sums along an axis of the transpose. -/
def sumAxisOfTranspose (axis : Nat) (t : Tensor) : Action Fault Tensor := do
  let view ← t.transpose
  view.sumAxis axis

theorem SameSums.exchanged (which : Summation) (g : Grid) :
    SameSums which g which.exchanged g.transpose := by
  cases which with
  | rows => exact .rows_transpose g
  | columns => exact .columns_transpose g

section Matrices

variable (hs : t.shape = [rows, cols])

include hs

theorem sums_of_matrix (which : Summation) : t.sums which = summed which t.grid t := by
  rw [grid_of_matrix hs]
  refine sums_eq ?_
  unfold asMatrix
  rw [hs]

/-- Along an axis of a matrix its rows or its columns are summed. -/
theorem sumAxis_of_matrix (which : Summation) : t.sumAxis which.axis = t.sums which := by
  have hcollapse : t.collapse which.axis =
      .ok ⟨which.count t.grid, which.depth rows cols, which, t.grid⟩ := by
    unfold collapse
    rw [grid_of_matrix hs, hs]
    cases which <;> rfl
  rw [sums_of_matrix hs, sumAxis_eq hcollapse]

theorem grid_flipped : t.flipped.grid = t.grid.transpose := by
  rw [grid_of_matrix (shape_flipped hs), grid_of_matrix hs]
  rfl

theorem sumsOfTranspose_eq (hb : t.block = some src) (which : Summation) :
    sumsOfTranspose which t s = summed which t.grid.transpose t.flipped (s.retain src) := by
  unfold sumsOfTranspose
  rw [Action.bind_apply_of_ok (transpose_eq hs hb), sums_of_matrix (shape_flipped hs),
    grid_flipped hs]

theorem sumAxisOfTranspose_eq (hb : t.block = some src) (which : Summation) :
    sumAxisOfTranspose which.axis t s = sumsOfTranspose which t s := by
  unfold sumAxisOfTranspose sumsOfTranspose
  rw [Action.bind_apply_of_ok (transpose_eq hs hb), Action.bind_apply_of_ok (transpose_eq hs hb),
    sumAxis_of_matrix (shape_flipped hs)]

/-- The rows of a matrix and the columns of its transpose have the same sums, and so do the columns
of a matrix and the rows of its transpose. -/
theorem sums_exchanged (ho : t.Owned s) (hb : t.block = some src)
    (hp : ∀ which : Summation, s.Provides which.op t.device (which.recipe : Recipe t.dtype))
    (which : Summation) :
    SameElements [which.length rows cols] [which.length rows cols] (t.sums which s)
      (sumsOfTranspose which.exchanged t s) := by
  have hcount : which.length rows cols = which.count t.grid := by
    unfold Summation.count
    rw [grid_of_matrix hs]
  have hsame := SameSums.exchanged which t.grid
  have hretain : SameElements [which.exchanged.count t.grid.transpose]
      [which.exchanged.count t.grid.transpose]
      (summed which.exchanged t.grid.transpose t.flipped s)
      (summed which.exchanged t.grid.transpose t.flipped (s.retain src)) :=
    summed_retain hb (ho.lt hb)
  have hlength : which.exchanged.count t.grid.transpose = which.count t.grid := hsame.length
  rw [hlength] at hretain
  rw [hcount, sums_of_matrix hs, sumsOfTranspose_eq hs hb]
  exact (summed_same hb hb rfl rfl hsame (size_grid_lt ho hb) hp).trans hretain

end Matrices

/-! ## Vectors -/

section Vectors

variable (hs : t.shape = [n]) (ho : t.Owned s)

include hs

theorem grid_of_vector : t.grid = ⟨1, n, false⟩ := by
  unfold grid
  rw [hs]
  exact congrArg (Grid.mk 1 · false) List.prod_singleton

/-- A vector is summed along its axis as a single column. -/
theorem sumAxis_of_vector : t.sumAxis 0 = summed .rows ⟨n, 1, false⟩ t := by
  have hcollapse : t.collapse 0 = .ok ⟨1, n, .rows, ⟨n, 1, false⟩⟩ := by
    unfold collapse
    rw [hs]
    rfl
  exact sumAxis_eq hcollapse

include ho

/-- The rows and columns that are summed are those of a single row. -/
theorem sums_of_vector (which : Summation) : t.sums which = summed which ⟨1, n, false⟩ t := by
  have hflag : t.transposed = false := by
    cases hflag : t.transposed with
    | false => rfl
    | true =>
      have hrank : t.rank = 2 := ho.valid.rank hflag
      have hlength : t.rank = 1 := congrArg List.length hs
      cases hlength.symm.trans hrank
  have hmatrix : t.asMatrix = .ok (1, n) := by
    unfold asMatrix
    rw [hs]
  rw [sums_eq hmatrix, hflag]

variable (hb : t.block = some src)

include hb

/-- The columns of a vector have sums of as many bytes. -/
theorem byteSize_of_vector :
    Shape.byteSize [Summation.rows.count ⟨1, n, false⟩] t.dtype = .ok (t.byteSize s) := by
  have hf := ho.valid.filled src hb
  have hrank : t.rank ≠ 2 := by
    unfold rank
    rw [hs]
    exact nofun
  have hbytes := byteSize_of_counted ho hb (hf.counted hrank) (hf.count hb).symm
  rwa [hs] at hbytes

/-- The columns of the single row are seen if the host addresses the vector. -/
theorem sumsSeen_of_vector_iff :
    (∃ o, sumsSeen .rows t.dtype src s.blocks.size ⟨1, n, false⟩
        (s.acquire t.device (t.byteSize s)).2 = .ok o) ↔
      (s.device t.device).addressable = true := by
  have hextends := s.extends_acquire t.device (t.byteSize s)
  have hf := ho.valid.filled src hb
  have hcount : t.count (s.acquire t.device (t.byteSize s)).2 = (Grid.mk 1 n false).size := by
    rw [(hf.mono hextends).count hb, ← size_grid, grid_of_vector hs]
  have hbytes : n * t.dtype.width = t.byteSize s := by
    rw [byteSize_eq ho hb, hs, List.prod_singleton]
  have hlimit : t.byteSize s < Size.limit := by
    rw [byteSize_eq ho hb]
    exact hf.small
  have houtput := Store.seen_acquired_iff (s := s) (d := t.device) hlimit (Nat.le_of_eq hbytes)
  constructor
  · rintro ⟨o, ho⟩
    obtain ⟨-, -, dst, hdst, -⟩ := sumsSeen_eq_ok_iff.mp ho
    exact houtput.mp ⟨dst, hdst⟩
  · intro haddressable
    obtain ⟨dst, hdst⟩ := houtput.mpr haddressable
    have hm := seen_stored (ho.acquire t.device (t.byteSize s)) hb haddressable
    rw [hcount] at hm
    exact ⟨_, sumsSeen_eq_ok_iff.mpr ⟨_, hm, dst, hdst, rfl⟩⟩

variable (hp : ∀ which : Summation, s.Provides which.op t.device (which.recipe : Recipe t.dtype))

include hp

/-- The sum of a vector along its axis is that of the single row. -/
theorem sumAxis_of_vector_same :
    SameElements [1] [1] (t.sumAxis 0 s) (t.sums .columns s) := by
  have hsame : SameSums .rows ⟨n, 1, false⟩ .columns ⟨1, n, false⟩ :=
    (SameSums.rows_transpose ⟨n, 1, false⟩).trans (.single_row n)
  have hsize : (Grid.mk n 1 false).size < Size.limit := by
    have hlt := size_grid_lt ho hb
    rw [grid_of_vector hs] at hlt
    exact hsame.size ▸ hlt
  rw [sumAxis_of_vector hs, sums_of_vector hs ho]
  exact summed_same hb hb rfl rfl hsame hsize hp

/-- What is seen of a vector of integers has the integers as the sums of its columns. -/
theorem sums_rows_of_seen (hd : t.dtype.IsInteger) (hnot : ¬Refused (t.sums .rows s).1)
    {o : Outcome (Elem t.dtype)}
    (h : sumsSeen .rows t.dtype src s.blocks.size ⟨1, n, false⟩
      (s.acquire t.device (t.byteSize s)).2 = .ok o) :
    ∃ s₁, t.sums .rows s = (.ok (t.lineResult n s), s₁) ∧
      (t.lineResult n s).stored t.dtype s₁ = t.stored t.dtype s := by
  obtain ⟨m, hm, dst, hdst, rfl⟩ := sumsSeen_eq_ok_iff.mp h
  have hsize : (Grid.mk 1 n false).size < Size.limit := grid_of_vector hs ▸ size_grid_lt ho hb
  have hcols : m.size = n := (Block.size_of_seen hm).trans (Nat.one_mul n)
  have hzero (x : Elem t.dtype) : (arithmetic t.dtype).add (arithmetic t.dtype).zero x = .ok x := by
    rw [arithmetic_of_isInteger hd]
    exact Word.zero_add x
  have hkernel : Summation.rows.kernel (arithmetic t.dtype) m ⟨1, n, false⟩ dst = (m, .ok ()) :=
    sumRows_single_row hzero ((Nat.one_mul n) ▸ hsize) hcols (Block.size_of_seen hdst)
  rw [hkernel] at h
  rw [sums_of_vector hs ho] at hnot
  obtain ⟨s₁, hsums, hstored⟩ := summed_of_seen hb (byteSize_of_vector hs ho hb) hsize
    (hp .rows) ho hnot hcols h
  refine ⟨s₁, (congrFun (sums_of_vector hs ho .rows) s).trans hsums, hstored.trans ?_⟩
  have hcount : t.count s = (Grid.mk 1 n false).size := by
    rw [(ho.valid.filled src hb).count hb, ← size_grid, grid_of_vector hs]
  rw [stored_of_block hb, hcount, Block.decode_of_seen hm, Store.block_acquire_of_lt (ho.lt hb)]

/-- The sums of the columns of the single row are the integers of the vector, and they are had
exactly if the host addresses the vector and no memory is refused. -/
theorem sums_rows_of_vector (hd : t.dtype.IsInteger) :
    let run := t.sums .rows s
    ((∃ out, run.1 = .ok out) ↔ (s.device t.device).addressable = true ∧ ¬Refused run.1) ∧
    ∀ out, run.1 = .ok out → out.shape = [n] ∧
      out.dtype = t.dtype ∧ out.transposed = false ∧
      out.stored t.dtype run.2 = t.stored t.dtype s := by
  intro run
  have hsize : (Grid.mk 1 n false).size < Size.limit := grid_of_vector hs ▸ size_grid_lt ho hb
  have hseen {out : Tensor} (h : run.1 = .ok out) : ∃ o, sumsSeen .rows t.dtype src s.blocks.size
      ⟨1, n, false⟩ (s.acquire t.device (t.byteSize s)).2 = .ok o := by
    have hsums : (summed .rows ⟨1, n, false⟩ t s).1 = .ok out := sums_of_vector hs ho .rows ▸ h
    exact sumsSeen_of_summed hb (byteSize_of_vector hs ho hb) hsize (hp .rows) hsums
  rw [← sumsSeen_of_vector_iff hs ho hb]
  have hnot {out : Tensor} (h : run.1 = .ok out) : ¬Refused run.1 := by
    rw [h]
    exact id
  refine ⟨⟨fun ⟨out, h⟩ => ⟨hseen h, hnot h⟩, ?_⟩, fun out h => ?_⟩
  · rintro ⟨⟨o, ho'⟩, hn⟩
    obtain ⟨s₁, hrun, -⟩ := sums_rows_of_seen hs ho hb hp hd hn ho'
    exact ⟨_, congrArg Prod.fst hrun⟩
  · obtain ⟨o, ho'⟩ := hseen h
    obtain ⟨s₁, hrun, hstored⟩ := sums_rows_of_seen hs ho hb hp hd (hnot h) ho'
    change run = _ at hrun
    rw [hrun] at h ⊢
    cases h
    exact ⟨rfl, rfl, rfl, hstored⟩

end Vectors

end DeviceTensor.Tensor
