import SleepBlocker.Analysis.LedgerDiscipline
import SleepBlocker.Analysis.StatusHistory
import SleepBlocker.Interface.DaemonSteps
import SleepBlocker.Analysis.QuitFinality
import SleepBlocker.Analysis.SingleHolder
import SleepBlocker.Analysis.Announcements
import SleepBlocker.Analysis.PresenceFlag
import SleepBlocker.Analysis.TornReads
import SleepBlocker.Analysis.ToggleReplies
import SleepBlocker.Analysis.CloseCause
import SleepBlocker.Model.Session
import SleepBlocker.Analysis.CloseRace
import SleepBlocker.Analysis.ShutdownReplies
import SleepBlocker.Analysis.TrayUpdates
import SleepBlocker.Analysis.OneWindow
import SleepBlocker.Analysis.TrayTrap
import SleepBlocker.Analysis.TrayViews
import SleepBlocker.Analysis.SubscribeThenSeed
import SleepBlocker.Analysis.FreshWindow
import SleepBlocker.Analysis.ReleaseChain
import SleepBlocker.Analysis.ReleaseUndo
import SleepBlocker.Computation.Toml
import SleepBlocker.Model.Makefile
import SleepBlocker.Interface.VersionLine
import SleepBlocker.Analysis.OneSource
import SleepBlocker.Analysis.ErrorMask
import SleepBlocker.Analysis.Upgrades
import SleepBlocker.Analysis.ReleaseBuild
import SleepBlocker.Analysis.LaunchBudget
import SleepBlocker.Analysis.ConnectBounds
import SleepBlocker.Analysis.WindowEnd
import SleepBlocker.Analysis.IconPixels
import SleepBlocker.Analysis.AnnounceFirst
import SleepBlocker.Analysis.PanicHistory
import SleepBlocker.Analysis.QuitArrives
import SleepBlocker.Analysis.OneService
import SleepBlocker.Analysis.LostCookies
