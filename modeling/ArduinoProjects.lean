import ArduinoProjects.Lib.Machine
import ArduinoProjects.RingCoder.Display
import ArduinoProjects.RingCoder.Encoder
import ArduinoProjects.RingCoder.Leds
import ArduinoProjects.RingCoder.Overflow
import ArduinoProjects.Combolock.Editing
import ArduinoProjects.Combolock.Opening
import ArduinoProjects.Combolock.Secrecy
import ArduinoProjects.Timer.Countdown
import ArduinoProjects.Timer.Pause
import ArduinoProjects.Volume.Keys
import ArduinoProjects.Prankphone.Silent
import ArduinoProjects.Dataflash.Pages
import ArduinoProjects.Dataflash.Layout
import ArduinoProjects.Dataflash.Traffic
import ArduinoProjects.BleRgb.Decoding
import ArduinoProjects.BleRgb.Ledger
import ArduinoProjects.BleRgb.Fading
import ArduinoProjects.BleRgb.History
import ArduinoProjects.BleRgb.Blink
import ArduinoProjects.BleRgb.Shown
import ArduinoProjects.BleRgb.Moves
import ArduinoProjects.BleRgb.Phases
import ArduinoProjects.BleRgb.Roulette
import ArduinoProjects.BleRgb.Pacing
import ArduinoProjects.BbBob.Echo
import ArduinoProjects.Nrf8001.Answers
import ArduinoProjects.Nrf8001.Delivery
import ArduinoProjects.NeoClock.Run
import ArduinoProjects.Sha204.SerialNumber
