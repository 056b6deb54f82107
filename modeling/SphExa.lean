import SphExa.Output.Fields
import SphExa.Output.Loop
import SphExa.Output.Selection
import SphExa.Writer.TurnLoop
import SphExa.Writer.Invariant
import SphExa.Writer.Serial
import SphExa.Writer.Completion
import SphExa.Writer.Outcome
import SphExa.Writer.BinFile
import SphExa.KelvinHelmholtz.Fields
import SphExa.KelvinHelmholtz.Glass
