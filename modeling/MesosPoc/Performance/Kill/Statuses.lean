import MesosPoc.Performance.Kill.Theorems

namespace MesosPoc.Performance

open Outcome

section Loops

variable {α ρ : Type} (nameOf : ρ → Str)

end Loops

section Scripts

end Scripts

end MesosPoc.Performance
