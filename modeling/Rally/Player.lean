import Rally.Player.Ping
import Rally.Player.Pong
/-!
# Players

The components of a game are initiators and responders.
-/

namespace Rally

/-- A component of a game. -/
inductive Player where
  /-- An initiator. -/
  | ping (ping : Ping)
  /-- A responder. -/
  | pong (pong : Pong)
  deriving DecidableEq

namespace Player

instance : Component Player where
  setup
    | .ping player, context => (Component.setup player context).map .ping
    | .pong player, context => (Component.setup player context).map .pong
  handle
    | .ping player, context, port, message =>
      (Component.handle player context port message).map .ping
    | .pong player, context, port, message =>
      (Component.handle player context port message).map .pong
  finish
    | .ping player, context => (Component.finish player context).map .ping
    | .pong player, context => (Component.finish player context).map .pong

end Player

namespace ComponentType

/-- A component type inside of another one. -/
def map {C D : Type} (wrap : C → D) (type : ComponentType C) : ComponentType D where
  library := type.library
  name := type.name
  description := type.description
  ports := type.ports
  params := type.params
  create site := (type.create site).map wrap

end ComponentType

/-- A registry with both kinds of players, inside of a type of components. -/
def Registry.builtin {C : Type} (wrap : Player → C) : Registry C :=
  (({} : Registry C).register (Ping.type.map fun ping => wrap (.ping ping))).register
    (Pong.type.map fun pong => wrap (.pong pong))

end Rally
