import PtyHost.Broker.Error
import PtyHost.FileSystem

/-!
# From a master to its slave

The helper changes one device, and the caller names it only by holding its master open. The names
that the kernel gives are accepted in two shapes: a slave directly in `/dev/pts`, or a master
`/dev/pty…` whose slave is the `/dev/tty…` of the same ending. Anything else is refused before a
file is touched.
-/

namespace PtyHost.Broker

/-- The directory that devices are named in. -/
def deviceDir : Path := .ofAscii "/dev"

/-- The directory that holds the slaves of the first shape. -/
def slaveDir : Path := .ofAscii "/dev/pts"

/-- What the name of a master of the second shape begins with. -/
def masterStem : String := "pty"

/-- What the name of its slave begins with. -/
def slaveStem : String := "tty"

/-- The failure on a name of neither shape. -/
def strangeName (name : Path) : Error :=
  .deviceResolutionFailed ("determined a strange device name `" ++ name.display ++ "'")

/-- Accepts the name of a slave directly in `/dev/pts`. -/
def unix98Slave (name : Path) : Except Error Path :=
  match (name.below? slaveDir).bind Path.single? with
  | some _ => .ok name
  | none => .error (strangeName name)

/-- The slave `/dev/ttyXY` of a master `/dev/ptyXY`. -/
def legacySlave (master : Path) : Except Error Path :=
  match ((master.below? deviceDir).bind Path.single?).bind Utf8.decode? with
  | none => .error (strangeName master)
  | some leaf =>
    match masterStem.toList.isPrefixOf? leaf.toList with
    | some (c :: ending) =>
      .ok (deviceDir.join (.ofText (slaveStem ++ String.ofList (c :: ending))))
    | _ => .error (strangeName master)

/-- What the kernel tells of an open descriptor: the slave behind it if it is a master, the name
of the terminal if it is one, and the identity of the open file. -/
structure Descriptor where
  slaveName : Option Path := none
  terminalName : Option Path := none
  identity : Except OsError Identity

/-- The slave behind a descriptor. A file that is neither a master nor a terminal is looked for by
its identity among the devices. -/
def Descriptor.slave (d : Descriptor) (device? : Identity → Option Path) : Except Error Path :=
  match d.slaveName, d.terminalName, d.identity with
  | some name, _, _ => unix98Slave name
  | none, some name, _ => legacySlave name
  | none, none, .error e =>
    .error (.deviceResolutionFailed ("descriptor is not usable: " ++ e.message))
  | none, none, .ok id =>
    match device? id with
    | some name => legacySlave name
    | none => .error (.deviceResolutionFailed "no device node matches descriptor")

end PtyHost.Broker
