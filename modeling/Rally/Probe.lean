import Rally.Probe.Script
/-!
# Probes

A probe follows a script and remembers every hook that was called. It makes any exchange of messages
happen, so that a simulation can be observed from the inside.
-/

namespace Rally

/-- A hook that was called. -/
inductive ProbeEntry where
  /-- The probe was created. -/
  | created (name : String) (rank : RankId)
  /-- The run started. -/
  | setup (now : Instant) (name : String) (rank : RankId)
  /-- A message arrived. -/
  | event (now : Instant) (port : PortId) (message : Message)
  /-- The run ended. -/
  | finish (now : Instant)

/-- The state of a probe. -/
structure Probe where
  /-- What it does. -/
  script : Script
  /-- The number of messages that it reacts to beyond the script's list. -/
  max : Nat
  /-- Its ports with a link. -/
  wired : List String
  /-- Its voters. -/
  voters : List Voter
  /-- The messages received. -/
  received : Nat := 0
  /-- The hooks called, the last one first. -/
  log : List ProbeEntry := []

namespace Probe

/-- The names of all ports that a probe may have. -/
def portNames : List String := ["p0", "p1", "p2", "p3", "p4", "p5", "p6", "p7"]

/-- Remembers a hook. -/
def remember (probe : Probe) (entry : ProbeEntry) : Probe :=
  { probe with log := entry :: probe.log }

/-- Lets a voter vote. -/
def vote (reaction : Reaction Probe) (index : Nat)
    (ballot : Voter → Voter × List Vote × List Note) : Reaction Probe :=
  let probe := reaction.component
  match probe.voters[index]? with
  | none => reaction
  | some voter =>
    let (voter, votes, notes) := ballot voter
    { reaction with
      component := { probe with voters := probe.voters.set index voter }
      votes := reaction.votes ++ votes
      notes := reaction.notes ++ notes }

/-- Sends a message. -/
def post (reaction : Reaction Probe) (port : PortId) (message : Message) : Reaction Probe :=
  { reaction with sends := reaction.sends ++ [(port, message)] }

/-- Does one thing, given the message received. -/
def act (received : Message) (reaction : Reaction Probe) : Action → Reaction Probe
  | .send port message => post reaction port message
  | .echo port => post reaction port received
  | .append port text =>
    match received.payload with
    | .ok payload => post reaction port (.text (payload ++ text))
    | .error violation => { reaction with outcome := .violated violation }
  | .requireText =>
    match received.payload with
    | .ok _ => reaction
    | .error violation => { reaction with outcome := .violated violation }
  | .register index =>
    vote reaction index fun voter =>
      let (voter, votes) := voter.register
      (voter, votes, [])
  | .signal index => vote reaction index Voter.signal
  | .refuse port => { reaction with outcome := .violated (.noHandler port) }
  | .panic panic => { reaction with outcome := .panicked panic }

/-- Does one thing after the other, until one of them goes wrong. -/
def perform (received : Message) : List Action → Reaction Probe → Reaction Probe
  | [], reaction => reaction
  | action :: rest, reaction =>
    let reaction := act received reaction action
    match reaction.outcome with
    | .completed => perform received rest reaction
    | _ => reaction

/-- Forgets a violation where none is expected. -/
def tolerate (reaction : Reaction Probe) : Reaction Probe :=
  match reaction.outcome with
  | .violated _ => { reaction with outcome := .completed }
  | _ => reaction

/-- The actions for a message of a number. -/
def actionsFor (probe : Probe) (index : Nat) : List Action :=
  match probe.script.events[index]? with
  | some actions => actions
  | none => if index < probe.max then probe.script.each else []

/-- Remembers a message and reacts to it. -/
def handle (probe : Probe) (context : Context) (port : PortId) (message : Message) :
    Reaction Probe :=
  let actions := probe.actionsFor probe.received
  let probe := probe.remember (.event context.now port message)
  perform message actions { component := { probe with received := probe.received + 1 } }

instance : Component Probe where
  setup probe context :=
    let entry := .setup context.now context.name context.rank
    tolerate (perform .null probe.script.setup { component := probe.remember entry })
  handle := handle
  finish probe context :=
    tolerate (perform .null probe.script.finish
      { component := probe.remember (.finish context.now) })

/-- Configures the ports that a script names, in order. -/
def configureAll (site : Site) :
    List (PortMode × String) → site.Bindings → Except ConfigError site.Bindings
  | [], ports => .ok ports
  | (mode, port) :: rest, ports => do
    let (_, ports) ← site.configure mode port ports
    configureAll site rest ports

/-- Creates a probe from its script. -/
def fit (site : Site) (script : Script) (max : Nat) : Creation Probe site :=
  let wired := portNames.filter site.isWired
  let wanted := script.configure.getD (wired.map fun port => (.duplex, port))
  match configureAll site wanted site.noPorts with
  | .error problem => { result := .error problem }
  | .ok ports =>
    let probe : Probe := ⟨script, max, wired, List.replicate script.voters .unregistered, 0, []⟩
    let probe := probe.remember (.created site.name site.rank)
    let reaction := perform .null script.create { component := probe }
    { notes := reaction.notes, result := .ok ⟨reaction.component, ports, reaction.votes⟩ }

/-- Creates a probe, given a way to read scripts. -/
def create (readScript : String → Script) (site : Site) : Creation Probe site :=
  match site.params.find "max" (Parameters.natural? 64) 1000 with
  | .error problem => { result := .error problem }
  | .ok max => fit site (readScript ((site.params.get? "script").getD "")) max

/-- The type of probes with some ports, given a way to read scripts. -/
def type (readScript : String → Script) (name : String) (ports : Nat) : ComponentType Probe where
  library := "test"
  name := name
  description := "follows a script"
  ports := (List.range ports).map fun i => ⟨s!"p{i}", s!"port {i}"⟩
  params := [
    ⟨"script", "what to do", "\x7b\x7d"⟩,
    ⟨"max", "events answered by \x60each\x60", "1000"⟩]
  create := create readScript

/-- Probes with four ports. -/
def narrow (readScript : String → Script) : ComponentType Probe := type readScript "Probe" 4

/-- Probes with eight ports. -/
def wide (readScript : String → Script) : ComponentType Probe := type readScript "Wide" 8

end Probe

end Rally
