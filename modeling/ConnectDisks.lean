import ConnectDisks.Proofs.WinExact
import ConnectDisks.Proofs.Refinement
import ConnectDisks.Proofs.GameKept
import ConnectDisks.Proofs.LateMessages
import ConnectDisks.Proofs.SlotsAlive
import ConnectDisks.Proofs.OneToken
import ConnectDisks.Proofs.QueueOrder
import ConnectDisks.Proofs.LobbyShape
import ConnectDisks.Proofs.RejectedTurns
import ConnectDisks.Proofs.GamesEnd
import ConnectDisks.Proofs.Watchdog
import ConnectDisks.Proofs.Staleness
import ConnectDisks.Proofs.FailedAccepts
import ConnectDisks.Proofs.QueueTalk
import ConnectDisks.Proofs.ScanSafe
import ConnectDisks.Proofs.Decoding
import ConnectDisks.Proofs.Mirror
import ConnectDisks.Proofs.Projection
import ConnectDisks.Proofs.Dialogue
import ConnectDisks.Proofs.Service
import ConnectDisks.Game.Text
import ConnectDisks.Lib.Numerals
import ConnectDisks.Game.Stacks
import ConnectDisks.Proofs.Text
import ConnectDisks.Proofs.MovedGames
import ConnectDisks.Proofs.InputThread
import ConnectDisks.Proofs.TurnInput
import ConnectDisks.Proofs.ConsoleSafety
import ConnectDisks.Proofs.RacingTable
import ConnectDisks.Proofs.ConsolePlayer
import ConnectDisks.Proofs.ConsoleTable
import ConnectDisks.Proofs.Operations
import ConnectDisks.Proofs.TableProgress
import ConnectDisks.Proofs.Shares
import ConnectDisks.Proofs.Prompts
