import MatterRsServer.Controller.Credentials
import MatterRsServer.Lib.BinarySearch

/-!
# Vendor names

`crates/controller/src/vendors.rs` and `get_vendor_names` of `commands/misc.rs`. The table is a
parameter; it is strictly ascending by id, which a test of the source checks of the real one.
-/
namespace MatterRsServer.Controller
open Lib Wire

/-- `VENDORS`. -/
structure Vendors where
  all : List (UInt16 × String)
  ascending : all.Pairwise fun a b => a.1.toNat < b.1.toNat

namespace Vendors

/-- `vendors::name`. -/
def name (t : Vendors) (vendorId : UInt16) : Option String :=
  (BinarySearch.lookup (fun e => e.1.toNat) t.all vendorId.toNat).map Prod.snd

end Vendors

end MatterRsServer.Controller
