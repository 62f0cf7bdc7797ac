import PreflightBind.Go.Int
import PreflightBind.Go.Strings
import PreflightBind.Go.World
import PreflightBind.CPS.Regex
import PreflightBind.CPS.Parse
import PreflightBind.CPS.Laws
import PreflightBind.CPS.Pattern
import PreflightBind.CPS.Template
import PreflightBind.Engine.Config
import PreflightBind.Engine.Junk
import PreflightBind.Engine.Sequence
import PreflightBind.Engine.Limiter
import PreflightBind.Engine.Send
import PreflightBind.Engine.Prefix
import PreflightBind.Engine.Latency
import PreflightBind.Engine.Run
