import Rally.Component
import Rally.Topology.Registry
/-!
# Scripts

A script says what a component does when it is created, when a run starts, at each message and at
the end. Its actions send messages, vote, complain or break off.
-/

namespace Rally

/-- One thing that a script does. -/
inductive Action where
  /-- Sends a message. -/
  | send (port : PortId) (message : Message)
  /-- Sends the message received, or an empty one where there is none. -/
  | echo (port : PortId)
  /-- Sends the text received with more text behind it. -/
  | append (port : PortId) (text : String)
  /-- Insists on a text. -/
  | requireText
  /-- Registers a voter. -/
  | register (voter : Nat)
  /-- Signals that a voter is ready. -/
  | signal (voter : Nat)
  /-- Complains about a message at a port. -/
  | refuse (port : String)
  /-- Breaks off. -/
  | panic (panic : Panic)

/-- What a scripted component does. -/
structure Script where
  /-- The ports to configure, if not simply all that are wired. -/
  configure : Option (List (PortMode × String)) := none
  /-- The number of voters. -/
  voters : Nat := 0
  /-- The actions at its creation, all of them votes. -/
  create : List Action := []
  /-- The actions at the start of a run. -/
  setup : List Action := []
  /-- The actions at the first messages. -/
  events : List (List Action) := []
  /-- The actions at any later message. -/
  each : List Action := []
  /-- The actions at the end. -/
  finish : List Action := []

end Rally
