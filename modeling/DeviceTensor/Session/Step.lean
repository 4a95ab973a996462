import DeviceTensor.Session.Command
import DeviceTensor.Session.Reply
import DeviceTensor.Session.Slots
set_option autoImplicit false

/-!
# Sessions

A session runs a program on a store.  A failing command does not end it: what the command changed
before it failed stays, and the slots keep what they held.  A slot that is filled again lets go of
what it held before.
-/

namespace DeviceTensor

/-- A store and the names a program has given out. -/
structure Session where
  store : Store
  tensors : Slots Tensor
  blocks : Slots BlockId

/-- How a device of a session is described. -/
inductive DeviceSpec where
  | host (name : String) (seed limit : Option Nat)
  | simulated (name : String) (seed : Option Nat) (sim : Device.Simulation)
  deriving DecidableEq, Repr, Inhabited

namespace DeviceSpec

/-- The stream of a device; without a seed it is one that no seed gives. -/
def stream (index : Nat) (seed : Option Nat) : Stream := { seed := seed.getD (Size.limit + index) }

/-- The device that a description describes. -/
def device (index : Nat) : DeviceSpec → Device
  | .host name seed limit => .host name limit (stream index seed)
  | .simulated name seed sim => .simulated name sim (stream index seed)

end DeviceSpec

namespace Session

/-- The session before its first command: the default host and the described devices, no blocks,
and the host catalog for host memory. -/
def start (specs : List DeviceSpec) : Session where
  store :=
    { devices := ((DeviceSpec.host "default" none none :: specs).mapIdx DeviceSpec.device).toArray
      blocks := #[]
      registry := Registry.hostRegistry }
  tensors := .empty
  blocks := .empty

/-! ## Replies and slots -/

/-- The reply that a command failed with a fault. -/
def faulted (f : Fault) : Reply := .failed (.fault f)

/-- Runs an action and goes on with its result. -/
def perform {α : Type} (x : Action Fault α) (next : α → Session → Reply × Session) (σ : Session) :
    Reply × Session :=
  match x σ.store with
  | (.ok a, s) => next a { σ with store := s }
  | (.error f, s) => (faulted f, { σ with store := s })

/-- Goes on with the tensor that a name stands for. -/
def withTensor (name : String) (next : Tensor → Session → Reply × Session) (σ : Session) :
    Reply × Session :=
  match σ.tensors.get? name with
  | some t => next t σ
  | none => (.badRequest, σ)

/-- Goes on with the block that a name stands for. -/
def withBlock (name : String) (next : BlockId → Session → Reply × Session) (σ : Session) :
    Reply × Session :=
  match σ.blocks.get? name with
  | some b => next b σ
  | none => (.badRequest, σ)

/-- Goes on with the device that a name stands for. -/
def onDeviceNamed (name : String) (next : DeviceId → Session → Reply × Session) (σ : Session) :
    Reply × Session :=
  match σ.store.deviceNamed? name with
  | some d => next d σ
  | none => (.badRequest, σ)

/-- The reply with the state of a tensor. -/
def reportTensor (t : Tensor) (σ : Session) : Reply × Session := (.tensor (t.report σ.store), σ)

/-- The reply with the state of a block. -/
def reportBlock (b : BlockId) (σ : Session) : Reply × Session :=
  (.block (Block.report b σ.store), σ)

/-- Lets go of the tensor that a name stands for. -/
def dropTensor (name : String) (σ : Session) : Session :=
  match σ.tensors.get? name with
  | some t => { σ with store := t.release σ.store, tensors := σ.tensors.erase name }
  | none => σ

/-- Lets go of the block that a name stands for. -/
def dropBlock (name : String) (σ : Session) : Session :=
  match σ.blocks.get? name with
  | some b => { σ with store := σ.store.release b, blocks := σ.blocks.erase name }
  | none => σ

/-- Puts a new tensor into a slot, which lets go of what it held. -/
def keepTensor (name : String) (t : Tensor) (σ : Session) : Reply × Session :=
  let σ := σ.dropTensor name
  reportTensor t { σ with tensors := σ.tensors.put name t }

/-- Puts a new block into a slot, which lets go of what it held. -/
def keepBlock (name : String) (b : BlockId) (σ : Session) : Reply × Session :=
  let σ := σ.dropBlock name
  reportBlock b { σ with blocks := σ.blocks.put name b }

/-- Makes a tensor and puts it into a slot. -/
def makeTensor (name : String) (x : Action Fault Tensor) : Session → Reply × Session :=
  perform x (keepTensor name)

/-- Puts the changed form of a tensor into its slot. -/
def changeTensor (name : String) (x : Tensor → Action Fault Tensor) : Session → Reply × Session :=
  withTensor name fun t =>
    perform (x t) fun t σ => reportTensor t { σ with tensors := σ.tensors.put name t }

/-- Works on the elements of a tensor. -/
def workOn (name : String) (x : Tensor → Action Fault Unit) : Session → Reply × Session :=
  withTensor name fun t => perform (x t) fun () => reportTensor t

/-- Answers a question about a tensor. -/
def ask {α : Type} (name : String) (x : Tensor → Action Fault α) (answer : α → Reply) :
    Session → Reply × Session :=
  withTensor name fun t => perform (x t) fun a σ => (answer a, σ)

/-- Computes a tensor into the target. -/
def compute (out : Target) (make : Action Fault Tensor) (into : Tensor → Action Fault Unit) :
    Session → Reply × Session :=
  if out.existing then workOn out.name into else makeTensor out.name make

/-- Goes on with the right side of an operator. -/
def withRhs (rhs : Rhs) (next : Tensor.RightSide → Session → Reply × Session) :
    Session → Reply × Session :=
  match rhs with
  | .number x => next (.scalar x)
  | .named name => withTensor name fun t => next (.tensor t)

/-! ## Questions about elements -/

/-- All elements of a tensor as 64-bit numbers. -/
def numbers (t : Tensor) : Action Fault (List Double) := do
  let xs ← t.read t.dtype
  return xs.toList.map (Elem.toDouble t.dtype)

/-- Whether two numbers are equal as numbers. -/
def sameNumber (x y : Double) : Bool := Double.le x y && Double.le y x

/-- Whether two lists hold equal numbers. -/
def sameNumbers (xs ys : List Double) : Bool :=
  xs.length = ys.length && (xs.zip ys).all fun (x, y) => sameNumber x y

/-- What a look at numbers finds. -/
def statisticsOf (low high mean tolerance : Double) (xs : List Double) : Statistics where
  inRange := xs.all fun x => Double.le low x && Double.le x high
  whole := xs.all Double.isWhole
  varied := xs.any fun x => xs.head?.any (!sameNumber x ·)
  meanAgrees :=
    let actual := Double.div (Double.sum xs) (Double.ofInt xs.length)
    Double.le (Double.abs (Double.sub actual mean)) tolerance

/-- Whether two tensors share a block. -/
def sharesBlock (a b : Tensor) : Bool := a.block.isSome && a.block = b.block

/-! ## Launches -/

/-- The block that a name stands for, in a list of names. -/
def blocksNamed? (σ : Session) (names : List String) : Option (List BlockId) :=
  names.mapM σ.blocks.get?

/-- Runs the routine of a key itself. -/
def runDirect (key : RoutineKey) (inv : Invocation) (out : BlockId) (σ : Session) :
    Reply × Session :=
  match σ.store.registry.lookup key with
  | .error e => (.failed (.launch e), σ)
  | .ok routine =>
    match routine.run inv σ.store with
    | (.ok (), s) => reportBlock out { σ with store := s }
    | (.error e, s) => (.failed (.ofRoutine e), { σ with store := s })

/-- Runs a routine on named blocks. -/
def runLaunch (call : NamedInvocation) : Session → Reply × Session :=
  onDeviceNamed call.device fun device =>
    withBlock call.output fun output σ =>
      match σ.blocksNamed? call.inputs with
      | none => (.badRequest, σ)
      | some inputs =>
        let inv : Invocation :=
          { device := device, inputs := inputs, output := output, count := call.count,
            alpha := call.alpha, beta := call.beta, extents := call.extents,
            outType := call.outType }
        if call.direct then
          runDirect (.onDevice call.dtype call.op device σ.store) inv output σ
        else perform (DeviceTensor.launch call.op call.dtype inv) (fun () => reportBlock output) σ

/-! ## Steps -/

/-- Registers a routine. -/
def registerRoutine (f : Registry Routine → Registry Routine) (σ : Session) : Reply × Session :=
  let σ := { σ with store := { σ.store with registry := f σ.store.registry } }
  (.registered σ.store.registry.size, σ)

/-- Runs one command. -/
def step : Command → Session → Reply × Session
  | .create out shape device dtype =>
    onDeviceNamed device fun d => makeTensor out (Tensor.onDevice shape d dtype)
  | .createEmpty out => makeTensor out (pure .empty)
  | .ofElements out shape _ xs => makeTensor out (Tensor.ofElements shape xs)
  | .share t out => withTensor t fun t => makeTensor out t.share
  | .duplicate t out => withTensor t fun t => makeTensor out t.duplicate
  | .transpose t out => withTensor t fun t => makeTensor out t.transpose
  | .reshaped t out shape => withTensor t fun t => makeTensor out (t.reshaped shape)
  | .drop t => fun σ => (.dropped (σ.tensors.get? t).isSome, σ.dropTensor t)
  | .reshape t shape => changeTensor t (·.reshape shape)
  | .resize t shape => changeTensor t (·.resize shape)
  | .takeForm t other => withTensor other fun other => changeTensor t (·.takeForm other)
  | .convert t dtype => changeTensor t (·.convert dtype)
  | .moveTo t device => onDeviceNamed device fun d => changeTensor t (·.moveTo d)
  | .fill t x => workOn t (·.fill x)
  | .upload t _ xs offset => workOn t (·.upload xs offset)
  | .copyFrom t other => withTensor other fun other => workOn t (·.copyFrom other)
  | .copyRange t other count dstOffset srcOffset =>
    withTensor other fun other => workOn t (·.copyRange other count dstOffset srcOffset)
  | .state t => withTensor t reportTensor
  | .read t none => withTensor t fun t => perform (t.read t.dtype) fun xs σ => (.elements _ xs, σ)
  | .read t (some d) => ask t (·.read d) (.elements d)
  | .dimension t i => ask t (fun t => .ofExcept (t.dimension i)) .size
  | .norm t => ask t (·.norm) (.element .float32)
  | .sum t d => ask t (·.sum d) (.element d)
  | .describe t => ask t (fun t => .inspect t.text) .text
  | .sharing a b =>
    withTensor a fun a => withTensor b fun b σ =>
      (.sharing (sharesBlock a b) (a.device = b.device), σ)
  | .check a b =>
    withTensor a fun a => ask b (fun b => .examine (a.checkSameKind b)) fun () => .accepted
  | .sameElements a b =>
    withTensor a fun a => withTensor b fun b =>
      perform (do return sameNumbers (← numbers a) (← numbers b)) fun same σ => (.equal same, σ)
  | .statistics t low high mean tolerance =>
    ask t numbers fun xs => .statistics (statisticsOf low high mean tolerance xs)
  | .map op t x out => withTensor t fun t => compute out (t.map op x) (t.mapTo op x ·)
  | .zip op a b out =>
    withTensor a fun a => withTensor b fun b => compute out (a.zip op b) (a.zipTo op b ·)
  | .sums which t out =>
    withTensor t fun t => compute out (t.sums which) (t.sumsTo which ·)
  | .sumAxis t axis out =>
    withTensor t fun t => compute out (t.sumAxis axis) (t.sumAxisTo axis ·)
  | .average t axis out => withTensor t fun t => makeTensor out (t.average axis)
  | .softmax t axis out =>
    withTensor t fun t => compute out (t.softmax axis) (t.softmaxTo axis ·)
  | .product a b out =>
    withTensor a fun a => withTensor b fun b => compute out (a.product b) (a.productTo b ·)
  | .operate f a rhs out =>
    withTensor a fun a => withRhs rhs fun rhs => makeTensor out (a.operate f rhs)
  | .assign f t rhs twice =>
    withRhs rhs fun rhs => workOn t fun t => do
      t.assign f rhs
      if twice then t.assign f rhs
  | .broadcast op alpha beta v m => withTensor v fun v => workOn m (v.broadcast op alpha beta ·)
  | .addScaled alpha t out => withTensor t fun t => workOn out (t.addScaled alpha ·)
  | .productScaled alpha a b beta c =>
    withTensor a fun a => withTensor b fun b => workOn c (a.productScaled alpha b beta ·)
  | .random t D => workOn t (·.fillSamples D)
  | .deviceInfo device => onDeviceNamed device fun d σ => (.device (σ.store.deviceReport d), σ)
  | .synchronize device => onDeviceNamed device fun d σ =>
    let answer := (σ.store.device d).answer .wait
    let σ := { σ with store := σ.store.modifyDevice d (·.after .wait) }
    match answer with
    | .ok () => (.accepted, σ)
    | .error e => (.failed (.device e), σ)
  | .reseed device seed => onDeviceNamed device fun d σ =>
    let restart (device : Device) : Device := { device with stream := { seed := seed } }
    (.accepted, { σ with store := σ.store.modifyDevice d restart })
  | .registerCatalog backend => registerRoutine (·.registerCatalog backend)
  | .lookup key => fun σ =>
    match σ.store.registry.lookup key with
    | .ok _ => (.found, σ)
    | .error e => (.failed (.launch e), σ)
  | .registerProbe key p => registerRoutine (·.register key (.probe p))
  | .newBlock out device size =>
    onDeviceNamed device fun d => perform (.changing (Store.acquire · d size)) (keepBlock out)
  | .blockOf t out => withTensor t fun t =>
    match t.block with
    | some b => perform (.change t.retain) fun () => keepBlock out b
    | none => fun σ => (.noBlock, σ)
  | .shareBlock b out => withBlock b fun b =>
    perform (.change (Store.retain · b)) fun () => keepBlock out b
  | .dropBlock b => fun σ => (.dropped (σ.blocks.get? b).isSome, σ.dropBlock b)
  | .blockState b => withBlock b reportBlock
  | .bindBlock b => withBlock b fun b => perform (Block.bindMemory b) fun () => reportBlock b
  | .writeBlock b _ xs => withBlock b fun b => perform (Block.write b xs) fun () => reportBlock b
  | .readBlock b d count =>
    withBlock b fun b => perform (Block.view b d count) fun xs σ => (.elements d xs, σ)
  | .sameBlock a b => withBlock a fun a => withBlock b fun b σ => (.sameBlock (a = b), σ)
  | .copyBlock dst dstOffset src srcOffset size =>
    withBlock dst fun dst => withBlock src fun src =>
      perform (Block.copy ⟨dst, dstOffset⟩ ⟨src, srcOffset⟩ size) fun () => reportBlock dst
  | .launch call => runLaunch call

/-- Runs a program; its replies are in the order of its commands. -/
def run : List Command → Session → List Reply × Session
  | [], σ => ([], σ)
  | c :: cs, σ =>
    let (reply, σ) := step c σ
    let (replies, σ) := run cs σ
    (reply :: replies, σ)

end Session

end DeviceTensor
