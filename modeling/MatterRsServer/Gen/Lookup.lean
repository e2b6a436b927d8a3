import MatterRsServer.Gen.Build
import MatterRsServer.Gen.Tables
import MatterRsServer.Lib.BinarySearch

/-!
# The lookup of a cluster

`cluster` of `crates/gen/src/lib.rs` searches the table that `build.rs` has sorted. Whatever the IDL
says, it finds the first block with the code.
-/
namespace MatterRsServer.Gen
open Lib

namespace Build

end Build

end MatterRsServer.Gen
