import Rally.Player
import Rally.Probe
/-!
# Players and probes together

A bench holds players and probes, so that probes can stand in the place of players.
-/

namespace Rally

/-- A component of a bench. -/
inductive Bench where
  /-- A player. -/
  | player (player : Player)
  /-- A probe. -/
  | probe (probe : Probe)

namespace Bench

instance : Component Bench where
  setup
    | .player inner, context => (Component.setup inner context).map .player
    | .probe inner, context => (Component.setup inner context).map .probe
  handle
    | .player inner, context, port, message =>
      (Component.handle inner context port message).map .player
    | .probe inner, context, port, message =>
      (Component.handle inner context port message).map .probe
  finish
    | .player inner, context => (Component.finish inner context).map .player
    | .probe inner, context => (Component.finish inner context).map .probe

/-- The types of players, and those of probes with scripts read in some way. -/
def registry (readScript : String → Script) : Registry Bench :=
  ((Registry.builtin .player).register ((Probe.narrow readScript).map .probe)).register
    ((Probe.wide readScript).map .probe)

end Bench

end Rally
