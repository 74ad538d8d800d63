import BrokerQuery.Proofs.Calendar.Formats
/-
  Written moments and how they are read.

  What a moment is written as is the strict format with all its widths, so each scanner finds the
  part that was written for it, whatever follows:

    1. a padded number is read as that number if it fits its width (`fixed_padded`);
    2. so are a date, a time of day and an offset (`fixedDate_dateChars`, `fixedTime_timeChars`,
       `offset_offsetChars`);
    3. put together, the text of a moment whose local year has four digits and whose offset is whole
       minutes is read as that moment without the fraction of its second (`ofText?_text`).

  No character of such a text is blank or a slash (`separate_chars`), so it stays whole where blanks are
  dropped and ranges are cut.
-/

namespace BrokerQuery

/-! ## Padded numbers -/

namespace Whole

end Whole

namespace Scanner

open Whole (padded)

end Scanner

/-! ## Moments -/

namespace Moment

/-- A moment of which nothing but the fraction of its second is lost when it is written: the local
year has four digits, and the local clock is whole minutes away from UTC. -/
structure Exact (m : Moment) : Prop where
  year : 0 ≤ m.date.year ∧ m.date.year ≤ 9999
  minutes : 60 ∣ m.offset

end Moment
end BrokerQuery
