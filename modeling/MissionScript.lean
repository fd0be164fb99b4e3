import MissionScript.Chance.Keystream
import MissionScript.Config
import MissionScript.Http.Service
import MissionScript.Json.Text
import MissionScript.Proofs.Acceptance
import MissionScript.Proofs.Calculation
import MissionScript.Proofs.RaceStep
import MissionScript.Proofs.RaceScript
import MissionScript.Proofs.TicketDraw
import MissionScript.Proofs.LotteryStep
import MissionScript.Proofs.LottoScript
import MissionScript.Proofs.LotteryRun
import MissionScript.Proofs.Refusal
import MissionScript.Proofs.BlockStep
import MissionScript.Proofs.Course
import MissionScript.Proofs.SourceView
import MissionScript.Proofs.RacePair
import MissionScript.Proofs.RunPair
import MissionScript.Proofs.IdleSkill
import MissionScript.Proofs.DisplacedDrift
import MissionScript.Proofs.SkillRun
import MissionScript.Proofs.History
import MissionScript.Proofs.LotterySound
import MissionScript.Proofs.LotteryCheck
import MissionScript.Proofs.FieldTurn
import MissionScript.Proofs.RaceSound
import MissionScript.Proofs.StepAccount
import MissionScript.Proofs.UtilityRun
import MissionScript.Proofs.DrawRecord
import MissionScript.Proofs.FieldRecord
import MissionScript.Proofs.DrawAccount
import MissionScript.Proofs.FieldWithout
import MissionScript.Proofs.RunWithout
import MissionScript.Proofs.RaceResult
import MissionScript.Proofs.PaletteScript
import MissionScript.Proofs.EditedScript
import MissionScript.Proofs.ExchangeRoundTrip
import MissionScript.Proofs.ReturnRate
import MissionScript.Proofs.TicketFairness
import MissionScript.Proofs.OfferedCars
import MissionScript.Proofs.Rewording
import MissionScript.Proofs.ServiceIsolation
import MissionScript.Proofs.NumberEntries
import MissionScript.Proofs.BlockMove
import MissionScript.Proofs.WinnersLine
import MissionScript.Proofs.SwappedBlocks
import MissionScript.Proofs.RunFallback
import MissionScript.Proofs.UniformDraw
import MissionScript.Proofs.GroupedDigits
import MissionScript.Proofs.ListedNumbers
import MissionScript.Proofs.EntryDescriptor
