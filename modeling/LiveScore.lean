import LiveScore.Click.Error
import LiveScore.Click.Silent
import LiveScore.Click.Voice
import LiveScore.Clock.Script
import LiveScore.Main
import LiveScore.Midi.Output
import LiveScore.Player.Rig
import LiveScore.Proofs.Player.Tempo
import LiveScore.Settings.Written
import LiveScore.Proofs.Midi.Message
import LiveScore.Proofs.Midi.Silence
import LiveScore.Proofs.Player.Restart
import LiveScore.Proofs.Numeric.Rounding
import LiveScore.Proofs.Midi.Transmission
import LiveScore.Proofs.Score.Tiling
import LiveScore.Proofs.Player.Retrigger
import LiveScore.Proofs.Pitch.Pinned
import LiveScore.Proofs.Pitch.Names
import LiveScore.Proofs.Harmony.Grammar
import LiveScore.Proofs.Clock.Interval
import LiveScore.Proofs.Score.Reference
import LiveScore.Proofs.Score.Layout
import LiveScore.Proofs.Score.Diagnosis
import LiveScore.Proofs.Click.Clicks
import LiveScore.Proofs.Clock.ScriptedCalls
import LiveScore.Proofs.Watch.Bursts
import LiveScore.Proofs.CommandLine.Groups
