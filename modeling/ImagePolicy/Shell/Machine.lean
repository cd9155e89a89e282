/-
# What processes share

The files, the open streams, the clock, and the processes: what the processes of a script have in
common. A stream is a file with a position in it, a text still to be read, or a sink that takes what
is written; a sink notes when and by whom, since what processes at work at the same time write is
put in order by time. A process in the background is run through when it starts, with the time at
which it would end; if a signal ends it before, what it wrote later is taken back.

Key definitions: `Shell.Stream`, `Shell.Machine`, `Shell.Job`, `Shell.Sent`, `Shell.Machine.write`,
`Shell.Machine.unread`, `Shell.Machine.collect`.
-/
import ImagePolicy.Shell.Octets
import ImagePolicy.Engine.Command

namespace ImagePolicy
namespace Shell

/-- What was written at once: when, by which process, and the text. -/
structure Chunk where
  time : Nat
  process : Nat
  text : Octets

/-- A stream that is open. What a sink has taken is listed newest first. -/
inductive Stream where
  | source (text : Octets)
  | file (path : Path) (position : Nat) (appends : Bool)
  | sink (chunks : List Chunk)
  | null

/-- A process in the background: which process started it, when it ends, and how. -/
structure Job where
  process : Nat
  parent : Nat
  ends : Nat
  status : ExitStatus

/-- A signal on its way: to which process, its number, and when it was sent. -/
structure Sent where
  process : Nat
  signal : Nat
  time : Nat

/-- What processes share. -/
structure Machine where
  disk : Disk
  streams : Array Stream
  now : Nat
  lastProcess : Nat
  sent : List Sent
  jobs : List Job

namespace Machine

/-- The stream of a number. -/
def stream (m : Machine) (n : Nat) : Stream :=
  (m.streams[n]?).getD .null

/-- The machine with a stream changed. -/
def setStream (m : Machine) (n : Nat) (s : Stream) : Machine :=
  { m with streams := m.streams.setIfInBounds n s }

/-- Opens a stream; gives its number. -/
def openStream (m : Machine) (s : Stream) : Nat × Machine :=
  (m.streams.size, { m with streams := m.streams.push s })

/-- A content with bytes written at a position; zero bytes fill what lies before it. -/
def overwrite (content : Bytes) (position : Nat) (bytes : Bytes) : Bytes :=
  let front := content.take position
  front ++ List.replicate (position - front.length) 0 ++ bytes ++
    content.drop (position + bytes.length)

/-- Writes to a stream, on behalf of a process. -/
def write (m : Machine) (n process : Nat) (text : Octets) : Machine :=
  match m.stream n with
  | .sink chunks => m.setStream n (.sink (⟨m.now, process, text⟩ :: chunks))
  | .file path position appends =>
    let content := (m.disk.content? path).getD []
    let position := if appends then content.length else position
    let bytes := Octets.toBytes text
    let disk := match m.disk.node? path with
      | some (.file _) => m.disk.put path (.file (overwrite content position bytes))
      | _ => m.disk
    { m with disk }.setStream n (.file path (position + bytes.length) appends)
  | _ => m

/-- What is left to be read of a stream. -/
def unread (m : Machine) (n : Nat) : Octets :=
  match m.stream n with
  | .source text => text
  | .file path position _ => .ofBytes (((m.disk.content? path).getD []).drop position)
  | _ => []

/-- Passes so many bytes of a stream. -/
def pass (m : Machine) (n count : Nat) : Machine :=
  match m.stream n with
  | .source text => m.setStream n (.source (text.drop count))
  | .file path position appends => m.setStream n (.file path (position + count) appends)
  | _ => m

/-- The order of what was written: by time, and otherwise as it was written. -/
def inOrder (chunks : List Chunk) : List Chunk :=
  chunks.reverse.mergeSort fun a b => decide (a.time ≤ b.time)

/-- What a sink has taken, in order. -/
def collect (m : Machine) (n : Nat) : Octets :=
  match m.stream n with
  | .sink chunks => (inOrder chunks).flatMap Chunk.text
  | _ => []

/-- A number for a new process. -/
def newProcess (m : Machine) : Nat × Machine :=
  (m.lastProcess + 1, { m with lastProcess := m.lastProcess + 1 })

/-- The job of a process. -/
def job? (m : Machine) (process : Nat) : Option Job :=
  m.jobs.find? fun j => j.process = process

/-- The machine with a job changed. -/
def setJob (m : Machine) (j : Job) : Machine :=
  { m with jobs := m.jobs.map fun k => if k.process = j.process then j else k }

/-- Ends a job now by a signal, and takes back what it would have written later. -/
def endJob (m : Machine) (j : Job) (signal : Nat) : Machine :=
  let kept : Chunk → Bool := fun c => c.process ≠ j.process || c.time ≤ m.now
  let streams := m.streams.map fun
    | .sink chunks => .sink (chunks.filter kept)
    | s => s
  { m with streams }.setJob { j with ends := m.now, status := .signal signal }

/-- When the last process ends. -/
def lastEnd (m : Machine) : Nat :=
  m.jobs.foldl (fun n j => max n j.ends) m.now

end Machine
end Shell
end ImagePolicy
