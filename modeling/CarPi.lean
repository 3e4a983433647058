import CarPi.Foundation.Runs
import CarPi.Foundation.CString
import CarPi.Foundation.Provenance
import CarPi.Foundation.Fifo
import CarPi.Foundation.Buffer
import CarPi.Foundation.Hex
import CarPi.Foundation.Lines
import CarPi.Foundation.Pieces
import CarPi.Foundation.Matcher
import CarPi.Foundation.Fields
import CarPi.GPS.Logger
import CarPi.GPS.LoggerTheorems
import CarPi.GPS.BacklogTheorems
import CarPi.GPS.AnswerMixing
import CarPi.GPS.Polling
import CarPi.Serial.AsyncSerial
import CarPi.Serial.WriteTheorems
import CarPi.Serial.ReadTheorems
import CarPi.Serial.Reopening
import CarPi.Serial.ReopeningTheorems
import CarPi.Serial.CloseTheorems
import CarPi.Serial.AppleSerial
import CarPi.Serial.AppleTheorems
import CarPi.GPS.System
import CarPi.GPS.SystemTheorems
import CarPi.Obd2.LibObd2
import CarPi.Obd2.ReadLoop
import CarPi.Obd2.ReplyTheorems
import CarPi.Obd2.HexTheorems
import CarPi.Obd2.RecognitionTheorems
import CarPi.Obd2.LastErrorTheorems
import CarPi.Obd2.ResultTheorems
import CarPi.Obd2.CInterfaceTheorems
import CarPi.Obd2.Pairing
import CarPi.Obd2.Monitor
import CarPi.Obd2.OpenPort
import CarPi.ArduPi.SerialPi
import CarPi.ArduPi.SerialPiTheorems
import CarPi.ArduPi.Gpio
import CarPi.ArduPi.GpioTheorems
import CarPi.ArduPi.ShiftTheorems
import CarPi.ArduPi.BusPins
import CarPi.ArduPi.Buses
import CarPi.ArduPi.BusTheorems
import CarPi.ArduPi.SpiSettings
import CarPi.ArduPi.Interrupts
import CarPi.ArduPi.InterruptTheorems
import CarPi.ArduPi.Int2bin
